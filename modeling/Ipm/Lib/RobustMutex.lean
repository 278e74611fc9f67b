import Mathlib.Logic.Basic

/-!
# A robust, error-checking mutex

The POSIX mutex with `PTHREAD_MUTEX_ROBUST` and `PTHREAD_MUTEX_ERRORCHECK`, as five states. When its
owner dies, the next thread to get it is told so (`EOWNERDEAD`) and has it in an *inconsistent* state:
it must say `pthread_mutex_consistent` before it unlocks. If it unlocks first, nobody can ever have
the mutex again.

What a thread does to a mutex that is not its own is refused (`EPERM`) and changes nothing, so the
three operations of an owner are one function, `onOwn`, with different ends.
-/

set_option autoImplicit false

namespace Lib

/-- A mutex, with threads named by `ι`. -/
inductive RobustMutex (ι : Type) where
  | free
  | held (owner : ι)
  /-- The owner died; nobody has taken the mutex since. -/
  | ownerDead
  /-- Taken after the owner's death, and not repaired. -/
  | inconsistent (owner : ι)
  | notRecoverable
  deriving DecidableEq, Repr

namespace RobustMutex

variable {ι : Type}

def owner : RobustMutex ι → Option ι
  | held o => some o
  | inconsistent o => some o
  | _ => none

/-- Getting the mutex, in `pthread_mutex_lock` or at the end of `pthread_cond_wait`. The flag is
`EOWNERDEAD`; `none` is a mutex that cannot be had now. -/
def acquire (m : RobustMutex ι) (me : ι) : Option (Bool × RobustMutex ι) :=
  match m with
  | free => some (false, held me)
  | ownerDead => some (true, inconsistent me)
  | _ => none

section Owner

variable [DecidableEq ι]

/-- A mutex that is `me`'s becomes `a`, or `c` if it was inconsistent. -/
def onOwn (m : RobustMutex ι) (me : ι) (a c : RobustMutex ι) : RobustMutex ι :=
  match m with
  | held o => if o = me then a else m
  | inconsistent o => if o = me then c else m
  | _ => m

/-- `pthread_mutex_consistent`. -/
def consistent (m : RobustMutex ι) (me : ι) : RobustMutex ι := m.onOwn me (held me) (held me)

/-- `pthread_mutex_unlock`. -/
def unlock (m : RobustMutex ι) (me : ι) : RobustMutex ι := m.onOwn me free notRecoverable

/-- Thread `me` is gone. -/
def die (m : RobustMutex ι) (me : ι) : RobustMutex ι := m.onOwn me ownerDead ownerDead

end Owner

variable {m m' : RobustMutex ι} {me : ι} {dead : Bool}

theorem acquire_cases (h : m.acquire me = some (dead, m')) :
    m = free ∧ dead = false ∧ m' = held me ∨
      m = ownerDead ∧ dead = true ∧ m' = inconsistent me := by
  cases m <;> simp only [acquire, Option.some.injEq, Prod.mk.injEq, reduceCtorEq] at h
  · exact .inl ⟨rfl, h.1.symm, h.2.symm⟩
  · exact .inr ⟨rfl, h.1.symm, h.2.symm⟩

/-- A mutex that is had was nobody's. -/
theorem owner_of_acquire (h : m.acquire me = some (dead, m')) :
    m.owner = none ∧ m'.owner = some me := by
  rcases acquire_cases h with ⟨rfl, -, rfl⟩ | ⟨rfl, -, rfl⟩
  · exact ⟨rfl, rfl⟩
  · exact ⟨rfl, rfl⟩

/-- ... and nobody else's becomes anybody's. -/
theorem owner_acquire_iff (h : m.acquire me = some (dead, m')) {o : ι} (ho : o ≠ me) :
    m'.owner = some o ↔ m.owner = some o := by
  obtain ⟨hnone, hsome⟩ := owner_of_acquire h
  rw [hnone, hsome]
  simp [ho.symm]

theorem onOwn_cases [DecidableEq ι] (m : RobustMutex ι) (me : ι) (a c : RobustMutex ι) :
    m.owner ≠ some me ∧ m.onOwn me a c = m ∨ m = held me ∧ m.onOwn me a c = a ∨
      m = inconsistent me ∧ m.onOwn me a c = c := by
  cases m with
  | held o => by_cases h : o = me <;> simp [onOwn, owner, h]
  | inconsistent o => by_cases h : o = me <;> simp [onOwn, owner, h]
  | free => simp [onOwn, owner]
  | ownerDead => simp [onOwn, owner]
  | notRecoverable => simp [onOwn, owner]

/-- What is not `me`'s stays with its owner. -/
theorem owner_onOwn [DecidableEq ι] {a c : RobustMutex ι} {x : Option ι} (ha : a.owner = x)
    (hc : c.owner = x) (m : RobustMutex ι) :
    (m.onOwn me a c).owner = if m.owner = some me then x else m.owner := by
  rcases onOwn_cases m me a c with ⟨hne, h⟩ | ⟨rfl, h⟩ | ⟨rfl, h⟩
  · rw [h, if_neg hne]
  · rw [h, ha]
    exact (if_pos rfl).symm
  · rw [h, hc]
    exact (if_pos rfl).symm

theorem owner_unlock [DecidableEq ι] (m : RobustMutex ι) (me : ι) :
    (m.unlock me).owner = if m.owner = some me then none else m.owner :=
  owner_onOwn (x := none) rfl rfl m

/-- Another's mutex is not unlocked. -/
theorem unlock_of_ne [DecidableEq ι] (h : m.owner ≠ some me) : m.unlock me = m := by
  rcases onOwn_cases m me free notRecoverable with ⟨-, hkept⟩ | ⟨rfl, -⟩ | ⟨rfl, -⟩
  · exact hkept
  · exact absurd rfl h
  · exact absurd rfl h

theorem owner_die [DecidableEq ι] (m : RobustMutex ι) (me : ι) :
    (m.die me).owner = if m.owner = some me then none else m.owner :=
  owner_onOwn (x := none) rfl rfl m

/-- What `me` gives up is not its own any more, and everybody else's stays. -/
theorem owner_givenUp [DecidableEq ι] (h : m'.owner = if m.owner = some me then none else m.owner) :
    m'.owner ≠ some me ∧ ∀ o, o ≠ me → (m'.owner = some o ↔ m.owner = some o) := by
  rw [h]
  split
  · rename_i hme
    refine ⟨nofun, fun o ho => ?_⟩
    rw [hme]
    simp [ho.symm]
  · rename_i hme
    exact ⟨hme, fun _ _ => Iff.rfl⟩

theorem owner_consistent [DecidableEq ι] (m : RobustMutex ι) (me : ι) :
    (m.consistent me).owner = m.owner := by
  rw [consistent, owner_onOwn (x := some me) rfl rfl m]
  split
  · rename_i h
    exact h.symm
  · rfl

/-! ## Keeping it usable -/

/-- The mutex is not lost, and an inconsistent one is in the hands of a thread with `P`. -/
structure Sound (P : ι → Prop) (m : RobustMutex ι) : Prop where
  usable : m ≠ notRecoverable
  repairing : ∀ o, m = inconsistent o → P o

variable {P Q : ι → Prop}

theorem Sound.free : Sound P (free : RobustMutex ι) := ⟨nofun, nofun⟩

theorem Sound.held : Sound P (held me) := ⟨nofun, nofun⟩

theorem Sound.ownerDead : Sound P (ownerDead : RobustMutex ι) := ⟨nofun, nofun⟩

theorem Sound.inconsistent (h : P me) : Sound P (inconsistent me) :=
  ⟨nofun, fun _ ho => by cases ho; exact h⟩

theorem Sound.mono (h : Sound P m) (hPQ : ∀ o, P o → Q o) : Sound Q m :=
  ⟨h.usable, fun o ho => hPQ o (h.repairing o ho)⟩

/-- **The rule for an owner's operation.** -/
theorem Sound.onOwn [DecidableEq ι] {a c : RobustMutex ι} (h : Sound P m)
    (hPQ : ∀ o, o ≠ me → P o → Q o) (ha : m = .held me → Sound Q a)
    (hc : m = .inconsistent me → Sound Q c) : Sound Q (m.onOwn me a c) := by
  rcases onOwn_cases m me a c with ⟨hne, heq⟩ | ⟨hm, heq⟩ | ⟨hm, heq⟩
  · rw [heq]
    refine ⟨h.usable, ?_⟩
    rintro o rfl
    have ho : o ≠ me := by
      rintro rfl
      exact hne rfl
    exact hPQ o ho (h.repairing o rfl)
  · rw [heq]
    exact ha hm
  · rw [heq]
    exact hc hm

/-- An unlock by a thread that has nothing to repair. -/
theorem Sound.unlock [DecidableEq ι] (h : Sound P m) (hme : ¬ P me)
    (hPQ : ∀ o, o ≠ me → P o → Q o) : Sound Q (m.unlock me) := by
  refine h.onOwn hPQ (fun _ => .free) ?_
  intro hm
  exact absurd (h.repairing me hm) hme

theorem Sound.consistent [DecidableEq ι] (h : Sound P m) (hPQ : ∀ o, o ≠ me → P o → Q o) :
    Sound Q (m.consistent me) :=
  h.onOwn hPQ (fun _ => .held) fun _ => .held

theorem Sound.die [DecidableEq ι] (h : Sound P m) (hPQ : ∀ o, o ≠ me → P o → Q o) :
    Sound Q (m.die me) :=
  h.onOwn hPQ (fun _ => .ownerDead) fun _ => .ownerDead

end RobustMutex

end Lib
