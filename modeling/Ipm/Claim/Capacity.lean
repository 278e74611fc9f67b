import Ipm.Claim.Calls
import Ipm.Claim.Purge

/-!
# Room in the list, and one unlock for each lock

The unlock duties of `ipm_memory_claim_region` are split: it unlocks after `claim_add_to_list`, but
that function's error branch has already unlocked. What keeps this from happening is a count: a claim
is admitted only with `count != capacity`, which is `count < capacity` as long as `count <= capacity`,
and nobody else has the mutex between the test and the insertion. So the error branch is never
reached, and the balance of locks and unlocks rests on the bound.

All of it rests on the mutex, and a thread that goes on without it is enough to break it
(`trespass_overfills`). The runs are those in which no lock is refused with `EOWNERDEAD` around in
`errno`, released ids are listed and nobody is killed. They go on after a failed assertion: the process
is gone, and the next one finds the mutex without an owner.
-/

set_option autoImplicit false

namespace Ipm

open Lib

/-- The slots `claim_add_to_list` reads or writes: those the search looks at, both ends of the shift,
and the one it fills. -/
def addTouches (claim : MemoryClaim) (list : ClaimList) : List Nat :=
  let pos := list.insertPos claim
  let moved := if pos ≠ list.count then list.count - pos - 1 else 0
  List.range (min (pos + 1) list.count) ++ List.range' pos moved ++ List.range' (pos + 1) moved ++ [pos]

theorem addTouches_lt {claim : MemoryClaim} {list : ClaimList} (h : list.count < list.capacity) :
    ∀ j ∈ addTouches claim list, j < list.capacity := by
  intro j hj
  have hle := list.insertPos_le claim
  simp only [addTouches, List.mem_append, List.mem_range, List.mem_range'_1, List.mem_singleton] at hj
  split at hj <;> omega

/-- It changes no other slot. -/
theorem claimAddToList_untouched {b : Build} {claim : MemoryClaim} {list : ClaimList} {j : Nat}
    (hj : j ∉ addTouches claim list) :
    (claimAddToList b claim list).shared.claims j = list.claims j := by
  have hmoved : ∀ k, k < list.count - list.insertPos claim - 1 → j ≠ list.insertPos claim + 1 + k := by
    rintro k hk rfl
    apply hj
    rw [addTouches, if_pos (by omega)]
    simp only [List.mem_append, List.mem_range'_1]
    exact .inl (.inr ⟨by omega, by omega⟩)
  have hpos : j ≠ list.insertPos claim := by
    rintro rfl
    apply hj
    simp [addTouches]
  have hkept : Function.update
      (if list.insertPos claim ≠ list.count then
        memmove list.claims (list.insertPos claim + 1) (list.insertPos claim)
          (list.count - list.insertPos claim - 1)
      else list.claims) (list.insertPos claim) claim j = list.claims j := by
    rw [Function.update_of_ne hpos]
    split
    · rw [memmove, if_neg]
      rintro ⟨hge, hlt⟩
      exact hmoved (j - (list.insertPos claim + 1)) (by omega) (by omega)
    · rfl
  unfold claimAddToList
  apply Build.shared_check (f := fun l : ClaimList => l.claims j) b rfl
  split
  · rfl
  · exact Build.shared_check (f := fun l : ClaimList => l.claims j) b hkept hkept

/-- It finds the same place whatever is in the others. -/
theorem insertPos_of_touched {claim : MemoryClaim} {list : ClaimList} {slots : Nat → MemoryClaim}
    (h : ∀ j ∈ addTouches claim list, slots j = list.claims j) :
    { list with claims := slots }.insertPos claim = list.insertPos claim := by
  apply scan_congr
  intro j _ hlt hle
  apply h
  have hle' : j ≤ list.insertPos claim := hle
  have hlt' : j < list.count := by
    rw [Nat.zero_add] at hlt
    exact hlt
  simp only [addTouches, List.mem_append, List.mem_range]
  exact .inl (.inl (.inl (by omega)))

/-- It does the same to these slots whatever is in the others. -/
theorem claimAddToList_of_touched {b : Build} {claim : MemoryClaim} {list : ClaimList}
    {slots : Nat → MemoryClaim} (hcount : list.count < list.capacity) (hcap : list.capacity < 2 ^ 31)
    (h : ∀ j ∈ addTouches claim list, slots j = list.claims j) :
    ∃ l₁ l₂, claimAddToList b claim list = .ret .success l₁ ∧
      claimAddToList b claim { list with claims := slots } = .ret .success l₂ ∧
      ∀ j ∈ addTouches claim list, l₂.claims j = l₁.claims j := by
  refine ⟨_, _, claimAddToList_putAt hcount hcap, claimAddToList_putAt hcount hcap, ?_⟩
  rw [insertPos_of_touched h]
  intro j hj
  by_cases hpos : j = list.insertPos claim
  · subst hpos
    simp [ClaimList.putAt]
  simp only [ClaimList.putAt, Function.update_of_ne hpos, memmove]
  split
  · rename_i hin
    apply h
    rw [addTouches, if_pos (by omega)]
    simp only [List.mem_append, List.mem_range'_1]
    exact .inl (.inl (.inr ⟨by omega, by omega⟩))
  · exact h j hj

/-- The id a call releases. -/
def RegionCall.releases : RegionCall → Option UInt64
  | releaseRegion _ claimId => some claimId
  | _ => none

/-- The point is between getting the mutex and giving it back. -/
def RegionPoint.holds : RegionPoint → Bool
  | repair => true
  | body => true
  | turn _ => true
  | admitted _ => true
  | mismatch _ => true
  | unlock _ _ => true
  | _ => false

/-- As many unlocks as locks, less the one that is still to come. -/
def RegionThread.Balanced (t : RegionThread) : Prop :=
  match t.point with
  | .lock => t.locks = t.unlocks
  | .returned _ _ => t.locks = t.unlocks
  | .mismatch _ => False
  | .dead => True
  | _ => t.locks = t.unlocks + 1

namespace RegionSys

/-- Released ids are listed, and nobody is killed. -/
def Listed (s : RegionSys) : RegionEvent → Prop
  | .die _ _ => False
  | .step i => ∀ t ∈ s.threads[i]?, t.point = .body → ∀ id ∈ t.call.releases,
      ∃ e ∈ s.list.entries, e.claimId = id
  | _ => True

-- by hand, so that the inner quantifier is decided on the one id and not on every `UInt64`
instance (s : RegionSys) : (a : RegionEvent) → Decidable (s.Listed a)
  | .step i =>
    have : DecidablePred fun t : RegionThread => t.point = .body → ∀ id ∈ t.call.releases,
        ∃ e ∈ s.list.entries, e.claimId = id :=
      fun t => @instDecidableForall _ _ _ (Option.decidableForallMem t.call.releases)
    Option.decidableForallMem s.threads[i]?
  | .die _ _ => inferInstanceAs (Decidable False)
  | .call _ | .lock _ _ | .wake _ _ _ => inferInstanceAs (Decidable True)

/-- No lock is refused with `EOWNERDEAD` around in `errno`. -/
def Honest : RegionEvent → Prop
  | .lock _ (some (_, errno)) => errno ≠ .EOWNERDEAD
  | _ => True

instance : (a : RegionEvent) → Decidable (Honest a)
  | .lock _ (some (_, errno)) => inferInstanceAs (Decidable (errno ≠ .EOWNERDEAD))
  | .lock _ none | .call _ | .wake _ _ _ | .step _ | .die _ _ => inferInstanceAs (Decidable True)

/-- No thread goes on without the mutex, released ids are listed, and nobody is killed. -/
def Orderly (s : RegionSys) (a : RegionEvent) : Prop := s.Listed a ∧ Honest a

instance (s : RegionSys) (a : RegionEvent) : Decidable (s.Orderly a) :=
  inferInstanceAs (Decidable (_ ∧ _))

/-- The list has room for what is added to it, and calls give back what they take. -/
structure Disciplined (b : Build) (s : RegionSys) : Prop where
  le_capacity : s.list.count ≤ s.list.capacity
  /-- A thread about to enter `claim_add_to_list` finds a free slot; the function returns and stays
  below `capacity`. -/
  adding : ∀ t ∈ s.threads, ∀ claim, t.point = .admitted claim →
    s.list.count < s.list.capacity ∧
      (∃ l, claimAddToList b claim s.list = .ret .success l ∧
        ∀ j, s.list.capacity ≤ j → l.claims j = s.list.claims j) ∧
      ∀ j ∈ addTouches claim s.list, j < s.list.capacity
  noMismatch : ∀ t ∈ s.threads, ∀ claim, t.point ≠ .mismatch claim
  balanced : ∀ i t, s.threads[i]? = some t → ∀ res out, t.point = .returned res out →
    t.locks = t.unlocks ∧ s.mutex.owner ≠ some i
  /-- Nobody is stuck with the mutex: its owner can take a step. -/
  owner_steps : ∀ i, s.mutex.owner = some i → (step b s (.step i)).isSome

/-- What every step keeps. -/
structure CapacityOk (s : RegionSys) : Prop where
  le_capacity : s.list.count ≤ s.list.capacity
  capacity_lt : s.list.capacity < 2 ^ 31
  balanced : ∀ t ∈ s.threads, t.Balanced
  owner : ∀ i, s.mutex.owner = some i ↔ ∃ t, s.threads[i]? = some t ∧ t.point.holds = true
  /-- Nothing has happened to the list since the admission test. -/
  admitted : ∀ t ∈ s.threads, ∀ claim, t.point = .admitted claim → admits s.list claim = true

variable {b : Build} {s s' : RegionSys} {i : Nat} {t t' : RegionThread} {a : RegionEvent}
variable {m m' : RobustMutex Nat} {l l' : ClaimList}

/-! ## The list -/

/-- However a releasing body ends, the list has not grown. -/
theorem release_shared {call : RegionCall} (hcount : l.count < 2 ^ 31)
    (hlisted : ∀ id ∈ call.releases, ∃ e ∈ l.entries, e.claimId = id) :
    (release b call l).shared.count ≤ l.count ∧
      (release b call l).shared.capacity = l.capacity := by
  cases call with
  | claimRegion h access offset count => exact ⟨le_rfl, rfl⟩
  | releaseRegion h id =>
    have hpos : 0 < l.count := by
      obtain ⟨e, he, -⟩ := hlisted id rfl
      rw [← l.length_entries]
      exact List.length_pos_of_mem he
    obtain ⟨hc, hcap⟩ := claimRemoveFromList_shared b id hpos hcount
    simp only [release, ipmMemoryReleaseRegion, ne_eq, not_true_eq_false, if_false]
    exact ⟨by omega, hcap⟩
  | releaseAll h =>
    simp only [release, ipmMemoryReleaseAll, ne_eq, not_true_eq_false, if_false,
      Outcome.shared_andThen_ret]
    exact releaseAllLoop_shared _ _ l hcount
  | removeAllActiveClaims h =>
    simp only [release, ipmMemoryRemoveAllActiveClaims, ne_eq, not_true_eq_false, if_false,
      Outcome.shared_andThen_ret]
    exact removeAllLoop_shared _ l hcount

/-- An admitted claim finds a free slot. -/
theorem lt_capacity_of_admits {claim : MemoryClaim} (hle : l.count ≤ l.capacity)
    (h : admits l claim = true) : l.count < l.capacity := by
  simp only [admits, Bool.and_eq_true, bne_iff_ne] at h
  omega

/-- A move keeps the list within its capacity. -/
theorem ThreadMove.capacity (h : ThreadMove b i m l t a m' l' t') (hle : l.count ≤ l.capacity)
    (hcap : l.capacity < 2 ^ 31) (hadm : ∀ claim, t.point = .admitted claim → admits l claim = true)
    (hnodie : ∀ left, a ≠ .die i left)
    (hlisted : a = .step i → t.point = .body → ∀ id ∈ t.call.releases,
      ∃ e ∈ l.entries, e.claimId = id) :
    l'.count ≤ l'.capacity ∧ l'.capacity = l.capacity := by
  cases h with
  | acquire hp hm => exact ⟨hle, rfl⟩
  | trespass hp hcode hres => exact ⟨hle, rfl⟩
  | refuse hp hres => exact ⟨hle, rfl⟩
  | wake hp hm => exact ⟨hle, rfl⟩
  | repair hp => exact ⟨hle, rfl⟩
  | takeId hp hcall => exact ⟨hle, rfl⟩
  | release hp hcall hrun =>
    obtain ⟨hc, hcap'⟩ := release_shared (b := b) (by omega) (hlisted rfl hp)
    rw [hrun, Outcome.shared_ret] at hc hcap'
    exact ⟨by omega, hcap'⟩
  | sleep hp ha hown => exact ⟨hle, rfl⟩
  | refuseWait hp hown => exact ⟨hle, rfl⟩
  | letIn hp ha => exact ⟨hle, rfl⟩
  | @add claim _ _ hp hrun hres =>
    have hlt := lt_capacity_of_admits hle (hadm claim hp)
    rw [claimAddToList_putAt hlt hcap] at hrun
    cases hrun
    exact ⟨hlt, rfl⟩
  | @mismatch claim _ hp hrun =>
    rw [claimAddToList_putAt (lt_capacity_of_admits hle (hadm claim hp)) hcap] at hrun
    cases hrun
  | unlockMismatch hp => exact ⟨hle, rfl⟩
  | unlock hp => exact ⟨hle, rfl⟩
  | stopped hp hcall hrun =>
    obtain ⟨hc, hcap'⟩ := release_shared (b := b) (by omega) (hlisted rfl hp)
    rw [hrun, Outcome.shared_stop] at hc hcap'
    exact ⟨by omega, hcap'⟩
  | @stoppedAdding claim _ _ hp hrun =>
    rw [claimAddToList_putAt (lt_capacity_of_admits hle (hadm claim hp)) hcap] at hrun
    cases hrun
  | die hret hdead => exact absurd rfl (hnodie _)

/-- A thread outside the section leaves the list alone. -/
theorem ThreadMove.list_of_outside (h : ThreadMove b i m l t a m' l' t')
    (hnodie : ∀ left, a ≠ .die i left) (hout : t.point.holds = false) : l' = l := by
  cases h with
  | takeId hp hcall => rw [hp] at hout; cases hout
  | release hp hcall hrun => rw [hp] at hout; cases hout
  | add hp hrun hres => rw [hp] at hout; cases hout
  | mismatch hp hrun => rw [hp] at hout; cases hout
  | stopped hp hcall hrun => rw [hp] at hout; cases hout
  | stoppedAdding hp hrun => rw [hp] at hout; cases hout
  | die hret hdead => exact absurd rfl (hnodie _)
  | _ => rfl

/-- A thread comes to `claim_add_to_list` by the admission test. -/
theorem ThreadMove.admitted {claim : MemoryClaim} (h : ThreadMove b i m l t a m' l' t')
    (hp' : t'.point = .admitted claim) : admits l' claim = true := by
  cases h with
  | @acquire dead _ hp hm => cases dead <;> cases hp'
  | @wake claim' dead _ code errno hp hm =>
    rcases awake_cases dead code errno claim' with ⟨-, hawake⟩ | hawake
    · rw [hawake] at hp'
      cases hp'
    · rw [hawake] at hp'
      cases hp'
  | letIn hp ha =>
    cases hp'
    exact ha
  | _ => cases hp'

/-! ## The mutex -/

/-- A move keeps the balance: the error branch of `claim_add_to_list` is not entered. -/
theorem ThreadMove.balanced (h : ThreadMove b i m l t a m' l' t') (hle : l.count ≤ l.capacity)
    (hcap : l.capacity < 2 ^ 31) (hadm : ∀ claim, t.point = .admitted claim → admits l claim = true)
    (ht : t.Balanced) : t'.Balanced := by
  simp only [RegionThread.Balanced] at ht
  cases h with
  | @acquire dead _ hp hm =>
    rw [hp] at ht
    cases dead <;> simp [RegionThread.Balanced, ht]
  | trespass hp hcode hres =>
    rw [hp] at ht
    exact congrArg (· + 1) ht
  | refuse hp hres =>
    rw [hp] at ht
    exact ht
  | @wake claim dead _ code errno hp hm =>
    rw [hp] at ht
    simp only [RegionThread.Balanced]
    rcases awake_cases dead code errno claim with ⟨-, hawake⟩ | hawake
    · rw [hawake]
      exact ht
    · rw [hawake]
      exact ht
  | repair hp =>
    rw [hp] at ht
    exact ht
  | takeId hp hcall =>
    rw [hp] at ht
    exact ht
  | release hp hcall hrun =>
    rw [hp] at ht
    exact ht
  | sleep hp ha hown =>
    rw [hp] at ht
    exact ht
  | refuseWait hp hown =>
    rw [hp] at ht
    exact ht
  | letIn hp ha =>
    rw [hp] at ht
    exact ht
  | add hp hrun hres =>
    rw [hp] at ht
    exact ht
  | @mismatch claim _ hp hrun =>
    rw [claimAddToList_putAt (lt_capacity_of_admits hle (hadm claim hp)) hcap] at hrun
    cases hrun
  | unlockMismatch hp =>
    rw [hp] at ht
    exact ht.elim
  | unlock hp =>
    rw [hp] at ht
    exact ht
  | stopped hp hcall hrun => trivial
  | stoppedAdding hp hrun => trivial
  | die hret hdead => trivial

/-- The one `errno` that `ipm_mutex_lock` takes for the mutex. -/
theorem errno_of_lock {code errno : Errno} (hcode : code ≠ .EOWNERDEAD)
    (h : ipmMutexLock (some code) errno = .success) : errno = .EOWNERDEAD := by
  cases code <;> first | exact absurd rfl hcode | (cases errno <;> first | rfl | cases h)

/-- A move of thread `i` keeps it the owner exactly while it is between lock and unlock, and takes the
mutex from nobody else. -/
theorem ThreadMove.owner (h : ThreadMove b i m l t a m' l' t') (ht : t.Balanced)
    (hlock : ∀ code errno, a = .lock i (some (code, errno)) → errno ≠ .EOWNERDEAD)
    (hown : t.point.holds = true ↔ m.owner = some i) :
    (t'.point.holds = true ↔ m'.owner = some i) ∧
      ∀ j, j ≠ i → (m'.owner = some j ↔ m.owner = some j) := by
  have hsame : ∀ j, j ≠ i → (m.owner = some j ↔ m.owner = some j) := fun _ _ => Iff.rfl
  cases h with
  | acquire hp hm =>
    refine ⟨?_, fun j hj => RobustMutex.owner_acquire_iff hm hj⟩
    simp only [(RobustMutex.owner_of_acquire hm).2, iff_true]
    split <;> rfl
  | trespass hp hcode hres => exact absurd (errno_of_lock hcode hres) (hlock _ _ rfl)
  | refuse hp hres =>
    rw [hp] at hown
    exact ⟨hown, hsame⟩
  | @wake claim dead _ code errno hp hm =>
    refine ⟨?_, fun j hj => RobustMutex.owner_acquire_iff hm hj⟩
    simp only [(RobustMutex.owner_of_acquire hm).2, iff_true]
    rcases awake_cases dead code errno claim with ⟨-, hawake⟩ | hawake
    · rw [hawake]
      rfl
    · rw [hawake]
      rfl
  | repair hp =>
    rw [hp] at hown
    rw [RobustMutex.owner_consistent]
    exact ⟨hown, hsame⟩
  | takeId hp hcall =>
    rw [hp] at hown
    exact ⟨hown, hsame⟩
  | release hp hcall hrun =>
    rw [hp] at hown
    exact ⟨hown, hsame⟩
  | letIn hp ha =>
    rw [hp] at hown
    exact ⟨hown, hsame⟩
  | add hp hrun hres =>
    rw [hp] at hown
    exact ⟨hown, hsame⟩
  | mismatch hp hrun =>
    rw [hp] at hown
    exact ⟨hown, hsame⟩
  | unlockMismatch hp =>
    simp only [RegionThread.Balanced, hp] at ht
  | sleep hp ha howner =>
    obtain ⟨hi, hj⟩ := RobustMutex.owner_givenUp (m.owner_unlock i)
    exact ⟨⟨nofun, fun h => absurd h hi⟩, hj⟩
  | refuseWait hp howner =>
    rw [hp] at hown
    exact absurd (hown.mp rfl) howner
  | unlock hp =>
    obtain ⟨hi, hj⟩ := RobustMutex.owner_givenUp (m.owner_unlock i)
    exact ⟨⟨nofun, fun h => absurd h hi⟩, hj⟩
  | stopped hp hcall hrun =>
    obtain ⟨hi, hj⟩ := RobustMutex.owner_givenUp (m.owner_die i)
    exact ⟨⟨nofun, fun h => absurd h hi⟩, hj⟩
  | stoppedAdding hp hrun =>
    obtain ⟨hi, hj⟩ := RobustMutex.owner_givenUp (m.owner_die i)
    exact ⟨⟨nofun, fun h => absurd h hi⟩, hj⟩
  | die hret hdead =>
    obtain ⟨hi, hj⟩ := RobustMutex.owner_givenUp (m.owner_die i)
    exact ⟨⟨nofun, fun h => absurd h hi⟩, hj⟩

/-! ## Runs -/

/-- A call that starts has not locked. -/
theorem start_balanced (b : Build) (call : RegionCall) :
    (RegionThread.start b call).Balanced ∧ (RegionThread.start b call).point.holds = false := by
  simp only [RegionThread.start, RegionThread.Balanced]
  rcases start_cases b call with h | h | ⟨res, h⟩
  · rw [h]
    exact ⟨trivial, rfl⟩
  · rw [h]
    exact ⟨trivial, rfl⟩
  · rw [h]
    exact ⟨trivial, rfl⟩

/-- The owner is the thread at a holding point, as long as new threads and moved ones keep to it. -/
theorem CapacityOk.owner_call {call : RegionCall} (h : CapacityOk s) (j : Nat) :
    s.mutex.owner = some j ↔
      ∃ t, (s.threads ++ [.start b call])[j]? = some t ∧ t.point.holds = true := by
  rw [h.owner j]
  constructor
  · rintro ⟨t, hget, hholds⟩
    rw [← List.getElem?_append_left (List.getElem?_eq_some_iff.mp hget).1] at hget
    exact ⟨t, hget, hholds⟩
  · rintro ⟨t, hget, hholds⟩
    rcases getElem?_concat_cases hget with hget | ⟨-, rfl⟩
    · exact ⟨t, hget, hholds⟩
    · rw [(start_balanced b call).2] at hholds
      cases hholds

theorem CapacityOk.owner_move (h : CapacityOk s) (hget : s.threads[i]? = some t)
    (hlock : ∀ code errno, a = .lock i (some (code, errno)) → errno ≠ .EOWNERDEAD)
    (hmove : ThreadMove b i s.mutex s.list t a m l t') (j : Nat) :
    m.owner = some j ↔ ∃ t, (s.threads.set i t')[j]? = some t ∧ t.point.holds = true := by
  have hown : t.point.holds = true ↔ s.mutex.owner = some i := by
    rw [h.owner i, hget]
    simp
  obtain ⟨hi, hne⟩ := hmove.owner (h.balanced t (List.mem_of_getElem? hget)) hlock hown
  by_cases hj : j = i
  · subst hj
    rw [← hi, List.getElem?_set_self' , hget]
    simp
  · rw [hne j hj, h.owner j, List.getElem?_set_ne (Ne.symm hj)]

theorem CapacityOk.owner_of_holds (h : CapacityOk s) (hget : s.threads[i]? = some t)
    (hholds : t.point.holds = true) : s.mutex.owner = some i :=
  (h.owner i).mpr ⟨t, hget, hholds⟩

/-- What has been admitted stays admissible: nobody else is in the section. -/
theorem CapacityOk.admitted_move (h : CapacityOk s) (hget : s.threads[i]? = some t)
    (hnodie : ∀ left, a ≠ .die i left) (hmove : ThreadMove b i s.mutex s.list t a m l t') :
    ∀ u ∈ s.threads.set i t', ∀ claim, u.point = .admitted claim → admits l claim = true := by
  intro u hu claim hp
  rcases mem_set_or hu with rfl | ⟨j, hj, hget'⟩
  · exact hmove.admitted hp
  · have hout : t.point.holds = false := by
      rw [Bool.eq_false_iff]
      intro hholds
      have hi := h.owner_of_holds hget hholds
      rw [h.owner_of_holds hget' (by rw [hp]; rfl)] at hi
      exact hj (Option.some.inj hi)
    rw [hmove.list_of_outside hnodie hout]
    exact h.admitted u (List.mem_of_getElem? hget') claim hp

/-- **An orderly step keeps the bound, the balance and the owner.** -/
theorem CapacityOk.step (h : CapacityOk s) (hg : s.Orderly a) (hs : step b s a = some s') :
    CapacityOk s' := by
  rcases step_cases hs with ⟨call, rfl, rfl⟩ | ⟨i, t, m, l, t', hget, hmove, rfl⟩
  · refine ⟨h.le_capacity, h.capacity_lt, ?_, h.owner_call, ?_⟩
    · intro t ht
      rcases List.mem_append.mp ht with ht | ht
      · exact h.balanced t ht
      · rw [List.mem_singleton.mp ht]
        exact (start_balanced b call).1
    · intro t ht claim hp
      rcases List.mem_append.mp ht with ht | ht
      · exact h.admitted t ht claim hp
      · have hout := (start_balanced b call).2
        rw [List.mem_singleton.mp ht] at hp
        rw [hp] at hout
        cases hout
  · have hnodie : ∀ left, a ≠ .die i left := by
      rintro left rfl
      exact hg.1
    have hlisted : a = .step i → t.point = .body → ∀ id ∈ t.call.releases,
        ∃ e ∈ s.list.entries, e.claimId = id := by
      rintro rfl
      exact hg.1 t hget
    have hlock : ∀ code errno, a = .lock i (some (code, errno)) → errno ≠ .EOWNERDEAD := by
      rintro code errno rfl
      exact hg.2
    have hmem := List.mem_of_getElem? hget
    have hadm := h.admitted t hmem
    obtain ⟨hle, hcap⟩ := hmove.capacity h.le_capacity h.capacity_lt hadm hnodie hlisted
    refine ⟨hle, hcap ▸ h.capacity_lt, ?_, h.owner_move hget hlock hmove,
      h.admitted_move hget hnodie hmove⟩
    have ht := hmove.balanced h.le_capacity h.capacity_lt hadm (h.balanced t hmem)
    exact forall_mem_set h.balanced (fun _ _ hx => hx) ht

/-- A releasing body does not stay in its loop. -/
theorem release_ne_spin (b : Build) (call : RegionCall) (hcount : l.count < 2 ^ 31) :
    release b call l ≠ .stop .spin l' := by
  cases call with
  | claimRegion h access offset count =>
    intro hstop
    cases hstop
  | releaseRegion h id =>
    simp only [release, ipmMemoryReleaseRegion, ne_eq, not_true_eq_false, if_false]
    exact claimRemoveFromList_ne_spin b id l l'
  | releaseAll h =>
    have hloop : ∀ l', l.count < 2 ^ 31 → l.count ≤ 0 + l.count →
        releaseAllLoop b h.accessId l.count 0 l ≠ .stop .spin l' :=
      releaseAllLoop_ne_spin l.count 0 l
    simp only [release, ipmMemoryReleaseAll, ne_eq, not_true_eq_false, if_false]
    cases hrun : releaseAllLoop b h.accessId l.count 0 l with
    | ret res l₁ =>
      intro h
      cases h
    | stop w l₁ =>
      intro h
      cases h
      exact hloop l' hcount (by omega) hrun
  | removeAllActiveClaims h =>
    have hloop := removeAllLoop_ne_spin (b := b) l.count l
    simp only [release, ipmMemoryRemoveAllActiveClaims, ne_eq, not_true_eq_false, if_false]
    cases hrun : removeAllLoop b l.count l with
    | ret res l₁ =>
      intro h
      cases h
    | stop w l₁ =>
      intro h
      cases h
      exact hloop l' hcount le_rfl hrun

theorem finish_isSome {α : Type} {o : Outcome ClaimList α} {k : α → RegionSys → Option RegionSys}
    (hspin : ∀ l, o ≠ .stop .spin l) (hk : ∀ x l, o = .ret x l → (k x { s with list := l }).isSome) :
    (s.finish i t o k).isSome := by
  cases o with
  | ret x l => exact hk x l rfl
  | stop w l =>
    cases w with
    | spin => exact absurd rfl (hspin l)
    | assertion => rfl
    | fault => rfl

/-- A thread with the mutex gets on. -/
theorem CapacityOk.owner_steps (b : Build) (h : CapacityOk s) (hown : s.mutex.owner = some i) :
    (RegionSys.step b s (.step i)).isSome := by
  obtain ⟨t, hget, hholds⟩ := (h.owner i).mp hown
  have hcount : s.list.count < 2 ^ 31 := lt_of_le_of_lt h.le_capacity h.capacity_lt
  simp only [RegionSys.step, hget, Option.bind_some, advance]
  cases hp : t.point with
  | repair => rfl
  | body =>
    dsimp only
    split
    · rfl
    · exact finish_isSome (fun _ => release_ne_spin b t.call hcount) fun _ _ _ => rfl
  | turn claim =>
    dsimp only
    split
    · rfl
    · rfl
  | admitted claim =>
    have hlt := lt_capacity_of_admits h.le_capacity
      (h.admitted t (List.mem_of_getElem? hget) claim hp)
    dsimp only
    rw [claimAddToList_putAt hlt h.capacity_lt]
    rfl
  | mismatch claim => rfl
  | unlock res out => rfl
  | lock => rw [hp] at hholds; cases hholds
  | asleep claim => rw [hp] at hholds; cases hholds
  | returned res out => rw [hp] at hholds; cases hholds
  | dead => rw [hp] at hholds; cases hholds

theorem CapacityOk.disciplined (b : Build) (h : CapacityOk s) : s.Disciplined b := by
  refine ⟨h.le_capacity, ?_, ?_, ?_, fun i => h.owner_steps b⟩
  · intro t ht claim hp
    have hlt := lt_capacity_of_admits h.le_capacity (h.admitted t ht claim hp)
    have hkept : ∀ j, s.list.capacity ≤ j →
        (claimAddToList b claim s.list).shared.claims j = s.list.claims j := by
      intro j hj
      apply claimAddToList_untouched
      intro hin
      exact absurd (addTouches_lt hlt j hin) (by omega)
    rw [claimAddToList_putAt hlt h.capacity_lt] at hkept ⊢
    exact ⟨hlt, ⟨_, rfl, hkept⟩, addTouches_lt hlt⟩
  · intro t ht claim hp
    have hbal := h.balanced t ht
    simp only [RegionThread.Balanced, hp] at hbal
  · intro i t hget res out hp
    have hbal := h.balanced t (List.mem_of_getElem? hget)
    simp only [RegionThread.Balanced, hp] at hbal
    refine ⟨hbal, ?_⟩
    intro hown
    obtain ⟨t', hget', hholds⟩ := (h.owner i).mp hown
    rw [hget] at hget'
    cases hget'
    rw [hp] at hholds
    cases hholds

/-- **Room for every claim that is added, and one unlock for each lock, in every orderly run.** -/
theorem disciplined_of_orderly {raw : ClaimList} {capacity : Nat} (hcap : capacity < 2 ^ 31)
    (hr : Reach (RegionSys.step b) (fun s a => s.Orderly a) (init raw capacity) s) :
    s.Disciplined b := by
  have h0 : CapacityOk (init raw capacity) := by
    refine ⟨Nat.zero_le _, hcap, fun t ht => absurd ht List.not_mem_nil, fun i => ?_,
      fun t ht => absurd ht List.not_mem_nil⟩
    simp [init, RobustMutex.owner]
  have hok : CapacityOk s := hr.invariant h0 fun _ _ _ h hg hs => h.step hg hs
  exact hok.disciplined b

/-- A region is claimed, a second claim of it sleeps, and the first is released. -/
def claimWaitRelease : List RegionEvent :=
  [.call (.claimRegion ⟨1, 4096, .readWrite⟩ .readWrite 0 32), .lock 0 none, .step 0, .step 0,
   .step 0, .step 0, .call (.claimRegion ⟨2, 4096, .readWrite⟩ .readWrite 0 32), .lock 1 none, .step 1,
   .step 1, .call (.releaseRegion ⟨1, 4096, .readWrite⟩ 0), .lock 2 none, .step 2, .step 2,
   .wake 1 none .EINVAL, .step 1, .step 1, .step 1]

theorem disciplined_claimWaitRelease :
    ∃ s, Reach (RegionSys.step ⟨false⟩) (fun s a => s.Orderly a) (init zeroList pageCapacity) s ∧
      (s.threads.map (·.unlocks) = [1, 1, 1] ∧ s.list.count = 1) ∧ s.Disciplined ⟨false⟩ := by
  have htrace : ∃ s, Reach (RegionSys.step ⟨false⟩) (fun s a => s.Orderly a)
      (init zeroList pageCapacity) s ∧
      (s.threads.map (·.unlocks) = [1, 1, 1] ∧ s.list.count = 1) :=
    exists_reach_of_trace (g := fun s a => decide (s.Orderly a))
      (t := fun s => decide (s.threads.map (·.unlocks) = [1, 1, 1] ∧ s.list.count = 1))
      claimWaitRelease (fun _ _ h => of_decide_eq_true h) (fun _ h => of_decide_eq_true h)
      (by decide +kernel)
  obtain ⟨s, hr, hend⟩ := htrace
  exact ⟨s, hr, hend, disciplined_of_orderly (by decide) hr⟩

/-! ## Without the mutex -/

/-- Two claims for the one slot, the second of them by a thread whose lock was refused. -/
def trespass : List RegionEvent :=
  [.call (.claimRegion ⟨1, 4096, .readWrite⟩ .readWrite 0 32),
   .call (.claimRegion ⟨2, 4096, .readWrite⟩ .readWrite 0 32), .lock 0 none,
   .lock 1 (some (.EINVAL, .EOWNERDEAD)), .step 0, .step 1, .step 0, .step 1, .step 0, .step 1]

/-- Both pass the admission test, and the second is added to a full list: its process stops at the
assertion of `claim_add_to_list`, or, without assertions, is in the branch that unlocks. -/
theorem trespass_overfills :
    (∃ s, Reach (RegionSys.step ⟨false⟩) (fun s a => s.Listed a) (init zeroList 1) s ∧
      s.list.count = s.list.capacity ∧ (∃ t ∈ s.threads, t.point = .admitted ⟨1, 2, .readWrite, 0, 32⟩) ∧
      ¬ s.Disciplined ⟨false⟩) ∧
    ∃ s, Reach (RegionSys.step ⟨true⟩) (fun s a => s.Listed a) (init zeroList 1) s ∧
      (∃ t ∈ s.threads, t.point = .mismatch ⟨1, 2, .readWrite, 0, 32⟩) ∧ ¬ s.Disciplined ⟨true⟩ := by
  constructor
  · have htrace : ∃ s, Reach (RegionSys.step ⟨false⟩) (fun s a => s.Listed a) (init zeroList 1) s ∧
        (s.list.count = s.list.capacity ∧
          ∃ t ∈ s.threads, t.point = .admitted ⟨1, 2, .readWrite, 0, 32⟩) :=
      exists_reach_of_trace (g := fun s a => decide (s.Listed a))
        (t := fun s => decide (s.list.count = s.list.capacity ∧
          ∃ t ∈ s.threads, t.point = .admitted ⟨1, 2, .readWrite, 0, 32⟩))
        trespass.dropLast (fun _ _ h => of_decide_eq_true h) (fun _ h => of_decide_eq_true h)
        (by decide +kernel)
    obtain ⟨s, hr, hfull, t, ht, hp⟩ := htrace
    refine ⟨s, hr, hfull, ⟨t, ht, hp⟩, fun hok => ?_⟩
    exact absurd (hok.adding t ht _ hp).1 (by omega)
  · have htrace : ∃ s, Reach (RegionSys.step ⟨true⟩) (fun s a => s.Listed a) (init zeroList 1) s ∧
        ∃ t ∈ s.threads, t.point = .mismatch ⟨1, 2, .readWrite, 0, 32⟩ :=
      exists_reach_of_trace (g := fun s a => decide (s.Listed a))
        (t := fun s => decide (∃ t ∈ s.threads, t.point = .mismatch ⟨1, 2, .readWrite, 0, 32⟩))
        trespass (fun _ _ h => of_decide_eq_true h) (fun _ h => of_decide_eq_true h)
        (by decide +kernel)
    obtain ⟨s, hr, t, ht, hp⟩ := htrace
    exact ⟨s, hr, ⟨t, ht, hp⟩, fun hok => hok.noMismatch t ht _ hp⟩

end RegionSys

end Ipm
