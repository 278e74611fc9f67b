import Ipm.Claim.Calls

/-!
# The mutex and the death of its owner

There are two ways to come into a dead owner's mutex. `ipm_mutex_lock` knows `EOWNERDEAD` and says
`pthread_mutex_consistent`. `ipm_condition_wait` does not: it takes the code for a failed wait, and
`ipm_memory_claim_region` then unlocks a mutex it has not repaired, which nobody can have after that.

So an inconsistent mutex must be in the hands of a thread that is about to repair it. Every operation
keeps this, with one exception: a wait that ends on a mutex whose owner has died.
-/

set_option autoImplicit false

namespace Ipm

open Lib

namespace RegionSys

/-- Thread `i` has been told `EOWNERDEAD` by `pthread_mutex_lock`. -/
def Repairing (threads : List RegionThread) (i : Nat) : Prop :=
  ∃ t, threads[i]? = some t ∧ t.point = .repair

/-- No wait ends on a mutex whose owner has died. Threads may die anywhere. -/
def Heir (s : RegionSys) : RegionEvent → Prop
  | .wake _ _ _ => s.mutex ≠ .ownerDead
  | _ => True

instance (s : RegionSys) : (a : RegionEvent) → Decidable (s.Heir a)
  | .wake _ _ _ => inferInstanceAs (Decidable (_ ≠ _))
  | .call _ | .lock _ _ | .step _ | .die _ _ => inferInstanceAs (Decidable True)

variable {b : Build} {s s' : RegionSys} {i : Nat} {t t' : RegionThread} {a : RegionEvent}
variable {m : RobustMutex Nat} {l : ClaimList}

theorem Repairing.of_ne {o : Nat} (h : Repairing s.threads o) (ho : o ≠ i) :
    Repairing (s.threads.set i t') o := by
  obtain ⟨t, hget, hp⟩ := h
  refine ⟨t, ?_, hp⟩
  rw [List.getElem?_set_ne (Ne.symm ho)]
  exact hget

/-- **A thread's move keeps the mutex sound**, unless it wakes to a dead owner's mutex. -/
theorem ThreadMove.sound (h : ThreadMove b i s.mutex s.list t a m l t') (hget : s.threads[i]? = some t)
    (hg : s.Heir a) (hs : s.mutex.Sound (Repairing s.threads)) :
    m.Sound (Repairing (s.threads.set i t')) := by
  have hothers : ∀ o, o ≠ i → Repairing s.threads o → Repairing (s.threads.set i t') o := by
    intro o ho hrep
    exact hrep.of_ne ho
  have hidle : t.point ≠ .repair → ¬ Repairing s.threads i := by
    intro hp hrep
    obtain ⟨t₁, hget₁, hp₁⟩ := hrep
    rw [hget] at hget₁
    cases hget₁
    exact hp hp₁
  -- a move that leaves the mutex alone, by a thread that had nothing to repair
  have hkeep : t.point ≠ .repair → s.mutex.Sound (Repairing (s.threads.set i t')) := by
    intro hp
    apply hs.mono
    intro o ho
    apply hothers o _ ho
    rintro rfl
    exact hidle hp ho
  -- an unlock by such a thread
  have hgive : t.point ≠ .repair → (s.mutex.unlock i).Sound (Repairing (s.threads.set i t')) := by
    intro hp
    exact hs.unlock (hidle hp) hothers
  cases h with
  | @acquire dead m' hp hm =>
    rcases RobustMutex.acquire_cases hm with ⟨-, -, rfl⟩ | ⟨-, rfl, rfl⟩
    · exact .held
    · apply RobustMutex.Sound.inconsistent
      refine ⟨_, List.getElem?_set_self (List.getElem?_eq_some_iff.mp hget).1, ?_⟩
      simp
  | trespass hp hcode hres => exact hkeep (by simp [hp])
  | refuse hp hres => exact hkeep (by simp [hp])
  | wake hp hm =>
    rcases RobustMutex.acquire_cases hm with ⟨-, -, rfl⟩ | ⟨hdead, -, -⟩
    · exact .held
    · exact absurd hdead hg
  | repair hp => exact hs.consistent hothers
  | takeId hp hcall => exact hkeep (by simp [hp])
  | release hp hcall hrun => exact hkeep (by simp [hp])
  | sleep hp ha hown => exact hgive (by simp [hp])
  | refuseWait hp hown => exact hkeep (by simp [hp])
  | letIn hp ha => exact hkeep (by simp [hp])
  | add hp hrun hres => exact hkeep (by simp [hp])
  | mismatch hp hrun => exact hkeep (by simp [hp])
  | unlockMismatch hp => exact hgive (by simp [hp])
  | unlock hp => exact hgive (by simp [hp])
  | stopped hp hcall hrun => exact hs.die hothers
  | stoppedAdding hp hrun => exact hs.die hothers
  | die hret hdead => exact hs.die hothers

theorem sound_step (hg : s.Heir a) (hstep : RegionSys.step b s a = some s')
    (hs : s.mutex.Sound (Repairing s.threads)) : s'.mutex.Sound (Repairing s'.threads) := by
  rcases step_cases hstep with ⟨call, rfl, rfl⟩ | ⟨i, t, m, l, t', hget, hmove, rfl⟩
  · apply hs.mono
    intro o ho
    obtain ⟨t, hget, hp⟩ := ho
    rw [← List.getElem?_append_left (List.getElem?_eq_some_iff.mp hget).1] at hget
    exact ⟨t, hget, hp⟩
  · exact hmove.sound hget hg hs

/-- **The mutex outlives its owners** in every run where no wait ends on a dead owner's mutex. -/
theorem recoverable_of_heir {raw : ClaimList} {capacity : Nat}
    (hr : Reach (RegionSys.step b) (fun s a => s.Heir a) (init raw capacity) s) :
    s.mutex ≠ .notRecoverable := by
  have hsound : s.mutex.Sound (Repairing s.threads) :=
    hr.invariant .free fun _ _ _ h hg hs => sound_step hg hs h
  exact hsound.usable

/-- A thread dies with the mutex, and the next one repairs it. -/
theorem recoverable_after_death :
    ∃ s, Reach (RegionSys.step ⟨false⟩) (fun s a => s.Heir a) (init zeroList pageCapacity) s ∧
      s.mutex = .held 1 ∧ s.mutex ≠ .notRecoverable := by
  have htrace : ∃ s, Reach (RegionSys.step ⟨false⟩) (fun s a => s.Heir a)
      (init zeroList pageCapacity) s ∧ s.mutex = .held 1 :=
    exists_reach_of_trace (g := fun s a => decide (s.Heir a)) (t := fun s => decide (s.mutex = .held 1))
      [.call (.releaseAll ⟨1, 4096, .readWrite⟩), .lock 0 none, .die 0 zeroList,
       .call (.releaseAll ⟨2, 4096, .readWrite⟩), .lock 1 none, .step 1]
      (fun _ _ h => of_decide_eq_true h) (fun _ h => of_decide_eq_true h) (by decide)
  obtain ⟨s, hr, hheld⟩ := htrace
  exact ⟨s, hr, hheld, recoverable_of_heir hr⟩

/-! ## The exception -/

/-- A sleeper that wakes to a dead owner's mutex takes it away from everybody by its next step. -/
theorem lost_of_wake {claim : MemoryClaim} (code : Option Errno) (errno : Errno)
    (hget : s.threads[i]? = some t) (hp : t.point = .asleep claim) (hm : s.mutex = .ownerDead) :
    ∃ s₁ s₂, RegionSys.step b s (.wake i code errno) = some s₁ ∧
      RegionSys.step b s₁ (.step i) = some s₂ ∧ s₂.mutex = .notRecoverable := by
  have hi : i < s.threads.length := (List.getElem?_eq_some_iff.mp hget).1
  have hawake : RegionPoint.awake true code errno claim = .unlock .success none := by
    rcases awake_cases true code errno claim with ⟨h, -⟩ | h
    · cases h
    · exact h
  refine ⟨⟨.inconsistent i, s.list, s.threads.set i { t with point := .unlock .success none }⟩,
    ⟨.notRecoverable, s.list, s.threads.set i
      { t with point := .returned .success none, unlocks := t.unlocks + 1 }⟩, ?_, ?_, rfl⟩
  · simp [RegionSys.step, hget, hp, hm, RobustMutex.acquire, hawake, put]
  · simp [RegionSys.step, advance, hi, RobustMutex.unlock, RobustMutex.onOwn, put]

/-- A writer sleeps on a claimed region; a third thread dies with the mutex; the sleeper wakes. -/
def wakeToDeadOwner : List RegionEvent :=
  [.call (.claimRegion ⟨1, 4096, .readWrite⟩ .readWrite 0 32), .lock 0 none, .step 0, .step 0,
   .step 0, .step 0, .call (.claimRegion ⟨2, 4096, .readWrite⟩ .readWrite 0 32), .lock 1 none, .step 1,
   .step 1, .call (.releaseAll ⟨1, 4096, .readWrite⟩), .lock 2 none, .die 2 zeroList,
   .wake 1 none .EINVAL, .step 1]

theorem wakeToDeadOwner_notRecoverable :
    ∃ s, Reach (RegionSys.step ⟨false⟩) (fun _ _ => True) (init zeroList pageCapacity) s ∧
      s.mutex = .notRecoverable :=
  exists_reach_of_trace (g := fun _ _ => true) (t := fun s => decide (s.mutex = .notRecoverable))
    wakeToDeadOwner (fun _ _ _ => trivial) (fun _ h => of_decide_eq_true h) (by decide)

end RegionSys

end Ipm
