import Ipm.Claim.Calls
import Ipm.Lib.Tickets

/-!
# Claim ids

A claim gets its `claim_id` from `claim_counter`, by one `atomic_fetch_add` with `list_mutex` held. A
request that has to wait keeps its id, one that fails does not give it back, and nothing that removes
claims touches the counter. So the ids are the first values of the counter, one for each request that
got as far as the mutex.

The runs are those of `Claim/Calls.lean`, with any number of calls at once, failed waits and failed
assertions. Nobody is killed with the mutex, because such a thread leaves anything behind.
-/

set_option autoImplicit false

namespace Ipm

open Lib

/-- The handle a call was made with. -/
def RegionCall.handle : RegionCall → Handle
  | claimRegion h _ _ _ => h
  | releaseRegion h _ => h
  | releaseAll h => h
  | removeAllActiveClaims h => h

def RegionCall.claims : RegionCall → Bool
  | claimRegion _ _ _ _ => true
  | _ => false

/-- The id a thread has taken. -/
def RegionThread.claimId (t : RegionThread) : Option UInt64 := t.claim.map (·.claimId)

/-! ## The counter -/

theorem ClaimList.decCount_claimCounter (l : ClaimList) :
    l.decCount.claimCounter = l.claimCounter := by
  rw [decCount]

theorem ClaimList.move_claimCounter (l : ClaimList) (dst src n : Nat) (res : IpmResult) :
    ((l.move dst src n).andThen fun _ l => .ret res l).shared.claimCounter = l.claimCounter := by
  unfold ClaimList.move
  split <;> rfl

theorem claimRemoveFromList_counter (b : Build) (id : UInt64) (l : ClaimList) :
    (claimRemoveFromList b id l).shared.claimCounter = l.claimCounter := by
  have hdec := l.decCount_claimCounter
  simp only [claimRemoveFromList, Build.check]
  generalize l.decCount = l' at hdec ⊢
  split
  · split
    · exact hdec
    split
    · exact hdec
    split
    · -- the shift length does not matter here
      generalize (l.count % 2 ^ 32 - 1 + 2 ^ 32 - _ + 2 ^ 32 - 1) % 2 ^ 32 = n
      exact (l'.move_claimCounter _ _ n .success).trans hdec
    · exact hdec
  · exact hdec

theorem releaseAllLoop_counter {b : Build} {accessId : UInt64} (fuel i : Nat) (l : ClaimList) :
    (releaseAllLoop b accessId fuel i l).shared.claimCounter = l.claimCounter := by
  induction fuel generalizing i l with
  | zero =>
    rw [releaseAllLoop]
    split <;> rfl
  | succ fuel ih =>
    rw [releaseAllLoop]
    split
    · split
      · rw [Outcome.shared_andThen_of (f := ClaimList.claimCounter) _ fun _ l => ih i l]
        exact claimRemoveFromList_counter b _ l
      · exact ih (i + 1) l
    · rfl

theorem removeAllLoop_counter {b : Build} (fuel : Nat) (l : ClaimList) :
    (removeAllLoop b fuel l).shared.claimCounter = l.claimCounter := by
  induction fuel generalizing l with
  | zero =>
    rw [removeAllLoop]
    split <;> rfl
  | succ fuel ih =>
    rw [removeAllLoop]
    split
    · rw [Outcome.shared_andThen_of (f := ClaimList.claimCounter) _ fun _ l => ih l]
      exact claimRemoveFromList_counter b _ l
    · rfl

theorem claimAddToList_counter (b : Build) (claim : MemoryClaim) (l : ClaimList) :
    (claimAddToList b claim l).shared.claimCounter = l.claimCounter := by
  unfold claimAddToList
  apply Build.shared_check (f := ClaimList.claimCounter) b rfl
  split
  · rfl
  · exact Build.shared_check (f := ClaimList.claimCounter) b rfl rfl

namespace RegionSys

variable {b : Build} {s s' : RegionSys} {i : Nat} {t t' : RegionThread} {a : RegionEvent}
variable {m m' : RobustMutex Nat} {l l' : ClaimList}

/-- **No release touches the counter.** -/
theorem release_counter (b : Build) (call : RegionCall) (l : ClaimList) :
    (release b call l).shared.claimCounter = l.claimCounter := by
  cases call with
  | claimRegion h access offset count => rfl
  | releaseRegion h id =>
    simp only [release, ipmMemoryReleaseRegion, ne_eq, not_true_eq_false, if_false]
    exact claimRemoveFromList_counter b id l
  | releaseAll h =>
    simp only [release, ipmMemoryReleaseAll, ne_eq, not_true_eq_false, if_false,
      Outcome.shared_andThen_ret]
    exact releaseAllLoop_counter _ _ l
  | removeAllActiveClaims h =>
    simp only [release, ipmMemoryRemoveAllActiveClaims, ne_eq, not_true_eq_false, if_false,
      Outcome.shared_andThen_ret]
    exact removeAllLoop_counter _ l

/-! ## What a thread has built -/

/-- A thread builds one claim, after it has locked, and carries it to `claim_add_to_list`. -/
structure Builds (t : RegionThread) : Prop where
  unbuilt : t.point = .lock ∨ t.point = .repair ∨ t.point = .body → t.claim = none
  carried : ∀ claim, t.point.trying = some claim ∨ t.point = .asleep claim → t.claim = some claim
  made : ∀ claim, t.claim = some claim →
    t.call.claims = true ∧ claim.procId = t.call.handle.accessId
  passed : t.passed = true → t.claim.isSome = true

theorem Builds.start (b : Build) (call : RegionCall) : Builds (RegionThread.start b call) := by
  refine ⟨fun _ => rfl, ?_, nofun, nofun⟩
  intro claim hpoint
  rcases start_cases b call with hstart | hstart | ⟨res, hstart⟩ <;>
    simp [RegionThread.start, hstart, RegionPoint.trying] at hpoint

/-- A thread at a point where it has no use for its claim. -/
theorem Builds.leave {point : RegionPoint} (h : Builds t) (hcall : t'.call = t.call)
    (hclaim : t'.claim = t.claim) (hpassed : t'.passed = t.passed ∨ t.claim.isSome = true)
    (hpoint : t'.point = point) (hpast : point ≠ .lock ∧ point ≠ .repair ∧ point ≠ .body)
    (hidle : point.trying = none ∧ ∀ claim, point ≠ .asleep claim) : Builds t' := by
  rw [← hpoint] at hpast hidle
  refine ⟨?_, ?_, ?_, ?_⟩
  · rintro (hp | hp | hp)
    · exact absurd hp hpast.1
    · exact absurd hp hpast.2.1
    · exact absurd hp hpast.2.2
  · rintro claim (hp | hp)
    · rw [hidle.1] at hp
      cases hp
    · exact absurd hp (hidle.2 claim)
  · rw [hcall, hclaim]
    exact h.made
  · intro hpass
    rw [hclaim]
    rcases hpassed with hsame | hsome
    · exact h.passed (hsame ▸ hpass)
    · exact hsome

/-- A thread that goes on with the claim it has. -/
theorem Builds.carry {claim : MemoryClaim} (h : Builds t) (hcall : t'.call = t.call)
    (hclaim : t'.claim = t.claim) (hpassed : t'.passed = t.passed)
    (hpoint : t'.point.trying = some claim ∨ t'.point = .asleep claim) (hold : t.claim = some claim) :
    Builds t' := by
  refine ⟨?_, ?_, ?_, ?_⟩
  · rintro (hp | hp | hp) <;> rcases hpoint with hpoint | hpoint <;> rw [hp] at hpoint <;> cases hpoint
  · rintro claim' (hp | hp) <;> rcases hpoint with hpoint | hpoint
    · rw [hpoint] at hp
      cases hp
      exact hclaim.trans hold
    · rw [hpoint] at hp
      cases hp
    · rw [hp] at hpoint
      cases hpoint
    · rw [hpoint] at hp
      cases hp
      exact hclaim.trans hold
  · rw [hcall, hclaim]
    exact h.made
  · rw [hpassed, hclaim]
    exact h.passed

/-- A thread at `claim_add_to_list` has a claim to add. -/
theorem Builds.isSome_of_admitted {claim : MemoryClaim} (h : Builds t) (hp : t.point = .admitted claim) :
    t.claim.isSome = true := by
  rw [h.carried claim (.inl (congrArg RegionPoint.trying hp))]
  rfl

theorem ThreadMove.builds (h : ThreadMove b i m l t a m' l' t') (ht : Builds t) : Builds t' := by
  cases h with
  | acquire hp hm =>
    have hnone := ht.unbuilt (.inl hp)
    refine ⟨fun _ => hnone, ?_, ht.made, ht.passed⟩
    rintro claim (hpoint | hpoint) <;> · dsimp only at hpoint; split at hpoint <;> cases hpoint
  | trespass hp hcode hres =>
    have hnone := ht.unbuilt (.inl hp)
    exact ⟨fun _ => hnone, by simp [RegionPoint.trying], ht.made, ht.passed⟩
  | refuse hp hres => exact ht.leave rfl rfl (.inl rfl) rfl (by simp) ⟨rfl, by simp⟩
  | @wake claim dead _ code errno hp hm =>
    have hclaim := ht.carried claim (.inr hp)
    rcases awake_cases dead code errno claim with ⟨-, hawake⟩ | hawake
    · exact ht.carry rfl rfl rfl (.inl (congrArg RegionPoint.trying hawake)) hclaim
    · exact ht.leave rfl rfl (.inl rfl) hawake (by simp) ⟨rfl, by simp⟩
  | repair hp =>
    have hnone := ht.unbuilt (.inr (.inl hp))
    exact ⟨fun _ => hnone, by simp [RegionPoint.trying], ht.made, ht.passed⟩
  | takeId hp hcall =>
    refine ⟨by simp, by simp [RegionPoint.trying], ?_, fun _ => rfl⟩
    rintro claim ⟨rfl⟩
    show t.call.claims = true ∧ _ = t.call.handle.accessId
    rw [hcall]
    exact ⟨rfl, rfl⟩
  | release hp hcall hrun => exact ht.leave rfl rfl (.inl rfl) rfl (by simp) ⟨rfl, by simp⟩
  | sleep hp ha hown =>
    exact ht.carry rfl rfl rfl (.inr rfl) (ht.carried _ (.inl (congrArg RegionPoint.trying hp)))
  | refuseWait hp hown => exact ht.leave rfl rfl (.inl rfl) rfl (by simp) ⟨rfl, by simp⟩
  | letIn hp ha =>
    exact ht.carry rfl rfl rfl (.inl rfl) (ht.carried _ (.inl (congrArg RegionPoint.trying hp)))
  | add hp hrun hres =>
    exact ht.leave rfl rfl (.inr (ht.isSome_of_admitted hp)) rfl (by simp) ⟨rfl, by simp⟩
  | mismatch hp hrun =>
    exact ht.leave rfl rfl (.inr (ht.isSome_of_admitted hp)) rfl (by simp) ⟨rfl, by simp⟩
  | unlockMismatch hp => exact ht.leave rfl rfl (.inl rfl) rfl (by simp) ⟨rfl, by simp⟩
  | unlock hp => exact ht.leave rfl rfl (.inl rfl) rfl (by simp) ⟨rfl, by simp⟩
  | stopped hp hcall hrun => exact ht.leave rfl rfl (.inl rfl) rfl (by simp) ⟨rfl, by simp⟩
  | stoppedAdding hp hrun =>
    exact ht.leave rfl rfl (.inr (ht.isSome_of_admitted hp)) rfl (by simp) ⟨rfl, by simp⟩
  | die hret hdead => exact ht.leave rfl rfl (.inl rfl) rfl (by simp) ⟨rfl, by simp⟩

/-- The call a thread makes is the one it was started with. -/
theorem ThreadMove.call (h : ThreadMove b i m l t a m' l' t') : t'.call = t.call := by
  cases h <;> rfl

/-- **A move takes the next id, or leaves the counter alone.** -/
theorem ThreadMove.ticket (h : ThreadMove b i m l t a m' l' t') (ht : Builds t)
    (hnodie : ∀ left, a ≠ .die i left) :
    t'.claimId = t.claimId ∧ l'.claimCounter = l.claimCounter ∨
    t.claimId = none ∧ t'.claimId = some l.claimCounter ∧ l'.claimCounter = l.claimCounter + 1 := by
  cases h with
  | takeId hp hcall =>
    refine .inr ⟨?_, rfl, rfl⟩
    rw [RegionThread.claimId, ht.unbuilt (.inr (.inr hp))]
    rfl
  | release hp hcall hrun =>
    have hcounter := release_counter b t.call l
    rw [hrun] at hcounter
    exact .inl ⟨rfl, hcounter⟩
  | stopped hp hcall hrun =>
    have hcounter := release_counter b t.call l
    rw [hrun] at hcounter
    exact .inl ⟨rfl, hcounter⟩
  | @add claim _ _ hp hrun hres =>
    have hcounter := claimAddToList_counter b claim l
    rw [hrun] at hcounter
    exact .inl ⟨rfl, hcounter⟩
  | @mismatch claim _ hp hrun =>
    have hcounter := claimAddToList_counter b claim l
    rw [hrun] at hcounter
    exact .inl ⟨rfl, hcounter⟩
  | @stoppedAdding claim _ _ hp hrun =>
    have hcounter := claimAddToList_counter b claim l
    rw [hrun] at hcounter
    exact .inl ⟨rfl, hcounter⟩
  | die hret hdead => exact absurd rfl (hnodie _)
  | acquire hp hm => exact .inl ⟨rfl, rfl⟩
  | trespass hp hcode hres => exact .inl ⟨rfl, rfl⟩
  | refuse hp hres => exact .inl ⟨rfl, rfl⟩
  | wake hp hm => exact .inl ⟨rfl, rfl⟩
  | repair hp => exact .inl ⟨rfl, rfl⟩
  | sleep hp ha hown => exact .inl ⟨rfl, rfl⟩
  | refuseWait hp hown => exact .inl ⟨rfl, rfl⟩
  | letIn hp ha => exact .inl ⟨rfl, rfl⟩
  | unlockMismatch hp => exact .inl ⟨rfl, rfl⟩
  | unlock hp => exact .inl ⟨rfl, rfl⟩

/-! ## Runs -/

/-- Nobody is killed. -/
def Peaceful : RegionEvent → Prop
  | .die _ _ => False
  | _ => True

instance : (a : RegionEvent) → Decidable (Peaceful a)
  | .die _ _ => inferInstanceAs (Decidable False)
  | .call _ | .lock _ _ | .wake _ _ _ | .step _ => inferInstanceAs (Decidable True)

/-- The ids there are are the first ones the counter has had. -/
structure ClaimIdOk (s : RegionSys) : Prop where
  builds : ∀ t ∈ s.threads, Builds t
  issued : ∃ count, s.list.claimCounter = UInt64.ofNat count ∧
    Issued UInt64.ofNat count (s.threads.filterMap RegionThread.claimId)

theorem claimIdOk_init (raw : ClaimList) (capacity : Nat) : ClaimIdOk (init raw capacity) := by
  refine ⟨?_, 0, rfl, Issued.zero _⟩
  intro t ht
  exact absurd ht List.not_mem_nil

theorem ClaimIdOk.step (h : ClaimIdOk s) (hg : Peaceful a) (hs : RegionSys.step b s a = some s') :
    ClaimIdOk s' := by
  obtain ⟨count, hcounter, hissued⟩ := h.issued
  rcases step_cases hs with ⟨call, rfl, rfl⟩ | ⟨i, t, m, l, t', hget, hmove, rfl⟩
  · refine ⟨?_, count, hcounter, ?_⟩
    · intro t ht
      rcases List.mem_append.mp ht with ht | ht
      · exact h.builds t ht
      · rw [List.mem_singleton.mp ht]
        exact Builds.start b call
    · rw [List.filterMap_append]
      exact (List.append_nil _).symm ▸ hissued
  · have ht := h.builds t (List.mem_of_getElem? hget)
    have hnodie : ∀ left, a ≠ .die i left := by
      rintro left rfl
      exact hg
    refine ⟨forall_mem_set h.builds (fun _ _ hq => hq) (hmove.builds ht), ?_⟩
    rcases hmove.ticket ht hnodie with ⟨hsame, hkept⟩ | ⟨hnone, hsome, hnext⟩
    · refine ⟨count, hkept.trans hcounter, ?_⟩
      rw [filterMap_set_of_eq hget hsame]
      exact hissued
    · refine ⟨count + 1, ?_, hissued.next ?_⟩
      · rw [show l.claimCounter = s.list.claimCounter + 1 from hnext, hcounter, UInt64.ofNat_add]
        rfl
      · rw [hcounter] at hsome
        exact filterMap_set_perm hget hnone hsome

/-- **No claim id is given twice**, as long as the counter has not gone all the way round. -/
theorem ClaimIdOk.nodup (h : ClaimIdOk s)
    (hfew : s.threads.countP (fun t => t.call.claims) ≤ 2 ^ 64) :
    (s.threads.filterMap RegionThread.claimId).Nodup := by
  obtain ⟨count, -, hissued⟩ := h.issued
  have hmade : ∀ t ∈ s.threads, t.claimId.isSome = true → t.call.claims = true := by
    intro t ht hsome
    obtain ⟨id, hid⟩ := Option.isSome_iff_exists.mp hsome
    obtain ⟨claim, hclaim, -⟩ := Option.map_eq_some_iff.mp hid
    exact ((h.builds t ht).made claim hclaim).1
  have hlen := hissued.length_eq
  rw [List.length_filterMap_eq_countP] at hlen
  have hcount : count ≤ 2 ^ 64 := hlen ▸ (List.countP_mono_left hmade).trans hfew
  apply hissued.nodup
  intro i hi j hj
  exact ofNat_injOn (hi.trans_le hcount) (hj.trans_le hcount)

end RegionSys

end Ipm
