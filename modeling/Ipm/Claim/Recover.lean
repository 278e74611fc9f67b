import Ipm.Claim.Disjoint

/-!
# The way out

`ipm_memory_remove_all_active_claims` is what is left to do when a process has died with claims on the
list. It counts down to zero and looks each id up from the front, so it makes no difference what the
list holds or how often; what makes a difference is the assertion of `claim_remove_from_list`, which a
full list fails, and the `unsigned` its count is read into.
-/

set_option autoImplicit false

namespace Ipm

open Lib

variable {b : Build} {l : ClaimList}

/-- What `claim_remove_from_list` asserts of a list of `count` entries. -/
def RemovalAsserts (count capacity : Nat) : Prop :=
  count % 2 ^ 32 < capacity ∧ 0 < count % 2 ^ 32

/-- The last entry's id is found, or there is room for the shift that follows a failed search. -/
theorem claimRemoveFromList_last (hpos : 0 < l.count) (hle : l.count ≤ l.capacity)
    (hassert : b.ndebug = true ∨ RemovalAsserts l.count l.capacity) :
    ∃ res l', claimRemoveFromList b (l.claims (l.count - 1)).claimId l = .ret res l' := by
  have hcheck : b.ndebug = true ∨
      decide (l.count % 2 ^ 32 < l.decCount.capacity ∧ l.count % 2 ^ 32 > 0) = true := by
    rw [ClaimList.decCount_capacity, decide_eq_true_eq]
    exact hassert
  have hscan := scan_le (fun c => decide ((l.claims (l.count - 1)).claimId = c.claimId)) l.claims 0
    (l.count % 2 ^ 32)
  -- a search that fails has not got to the last entry, so the list is longer than an `unsigned` says
  have hfound : l.count < 2 ^ 32 → scan (fun c => decide ((l.claims (l.count - 1)).claimId =
      c.claimId)) l.claims 0 (l.count % 2 ^ 32) < l.count % 2 ^ 32 := by
    intro hlt
    rw [Nat.mod_eq_of_lt hlt] at hscan ⊢
    refine Nat.lt_of_le_of_ne (by omega) fun hend => ?_
    have hall := scan_eq_end_iff.mp hend _ (mem_window.mpr ⟨l.count - 1, by omega, rfl⟩)
    simp at hall
  simp only [claimRemoveFromList, ClaimList.decCount_claims]
  rw [Build.check_pos hcheck]
  generalize scan (fun c => decide ((l.claims (l.count - 1)).claimId = c.claimId)) l.claims 0
    (l.count % 2 ^ 32) = pos at hscan hfound ⊢
  split
  · exact ⟨_, _, rfl⟩
  · rename_i hzero
    rw [if_neg (by omega)]
    split
    · have hroom : pos + 1 + (l.count % 2 ^ 32 - 1 + 2 ^ 32 - pos + 2 ^ 32 - 1) % 2 ^ 32 ≤
          l.capacity := by
        omega
      rw [ClaimList.move, ClaimList.decCount_capacity, if_pos (by omega)]
      exact ⟨_, _, rfl⟩
    · exact ⟨_, _, rfl⟩

/-- With its assertions in, a removal that does not pass them stops. -/
theorem claimRemoveFromList_asserts {id : UInt64} (hndebug : b.ndebug = false)
    (hassert : ¬ RemovalAsserts l.count l.capacity) :
    claimRemoveFromList b id l = .stop .assertion l.decCount := by
  have hcheck : decide (l.count % 2 ^ 32 < l.decCount.capacity ∧ l.count % 2 ^ 32 > 0) = false := by
    rw [ClaimList.decCount_capacity, decide_eq_false_iff_not]
    exact hassert
  simp only [claimRemoveFromList, Build.check, hndebug, hcheck, Bool.or_self, Bool.false_eq_true,
    if_false]

/-- The countdown comes to its end when every count on the way passes. -/
theorem removeAllLoop_returns_iff :
    ∀ (fuel : Nat) (l : ClaimList), l.count ≤ fuel → l.count ≤ l.capacity → l.capacity < 2 ^ 64 →
      ((∃ l', removeAllLoop b fuel l = .ret () l' ∧ l'.count = 0 ∧ l'.capacity = l.capacity) ↔
        b.ndebug = true ∨ ∀ m, 0 < m → m ≤ l.count → RemovalAsserts m l.capacity) := by
  intro fuel
  induction fuel with
  | zero =>
    intro l hfuel _ _
    have hzero : l.count = 0 := Nat.le_zero.mp hfuel
    refine ⟨fun _ => .inr fun m hm hle => absurd hm (by omega), fun _ => ⟨l, ?_, hzero, rfl⟩⟩
    rw [removeAllLoop, if_neg (not_not.mpr hzero)]
  | succ fuel ih =>
    intro l hfuel hle hcap
    by_cases hzero : l.count = 0
    · refine ⟨fun _ => .inr fun m hm hle => absurd hm (by omega), fun _ => ⟨l, ?_, hzero, rfl⟩⟩
      rw [removeAllLoop, if_neg (not_not.mpr hzero)]
    · rw [removeAllLoop, if_pos hzero]
      by_cases hassert : b.ndebug = true ∨ RemovalAsserts l.count l.capacity
      · obtain ⟨res, l₁, hrun⟩ := claimRemoveFromList_last (Nat.pos_of_ne_zero hzero) hle hassert
        obtain ⟨hcount, hcapacity⟩ := claimRemoveFromList_decCount b
          (l.claims (l.count - 1)).claimId l
        rw [hrun, Outcome.shared_ret] at hcount hcapacity
        have hdec : l₁.count = l.count - 1 := by omega
        rw [hrun, Outcome.andThen_ret, ← hcapacity, ih l₁ (by omega) (by omega) (by omega)]
        refine or_congr_right' fun hndebug => ⟨fun h m hm hle => ?_, fun h m hm hle => ?_⟩
        · rcases Nat.lt_or_eq_of_le hle with hlt | rfl
          · exact h m hm (by omega)
          · rw [hcapacity]
            exact hassert.resolve_left hndebug
        · exact h m hm (by omega)
      · rw [not_or, Bool.not_eq_true] at hassert
        rw [claimRemoveFromList_asserts hassert.1 hassert.2, Outcome.andThen_stop]
        constructor
        · rintro ⟨l', h, -⟩
          cases h
        · rintro (h | h)
          · rw [hassert.1] at h
            cases h
          · exact absurd (h l.count (Nat.pos_of_ne_zero hzero) le_rfl) hassert.2

/-- The counts on the way down, put together. -/
theorem removalAsserts_forall_iff {count capacity : Nat} (hle : count ≤ capacity) :
    (∀ m, 0 < m → m ≤ count → RemovalAsserts m capacity) ↔
      count = 0 ∨ count < capacity ∧ count < 2 ^ 32 := by
  constructor
  · intro h
    by_cases hzero : count = 0
    · exact .inl hzero
    · have hlt : count < 2 ^ 32 := by
        by_contra hbig
        have hlow := (h (2 ^ 32) (by decide) (Nat.le_of_not_lt hbig)).2
        exact absurd hlow (by decide)
      have hlast := (h count (Nat.pos_of_ne_zero hzero) le_rfl).1
      rw [Nat.mod_eq_of_lt hlt] at hlast
      exact .inr ⟨hlast, hlt⟩
  · rintro (rfl | ⟨hlt, hsmall⟩) m hm hmle
    · exact absurd hm (by omega)
    · rw [RemovalAsserts, Nat.mod_eq_of_lt (by omega)]
      omega

theorem removeAllLoop_capacity :
    ∀ (fuel : Nat) (l : ClaimList), (removeAllLoop b fuel l).shared.capacity = l.capacity := by
  intro fuel
  induction fuel with
  | zero =>
    intro l
    rw [removeAllLoop]
    split <;> rfl
  | succ fuel ih =>
    intro l
    rw [removeAllLoop]
    split
    · rw [Outcome.shared_andThen_of _ fun _ l' => ih l']
      exact (claimRemoveFromList_decCount b _ l).2
    · rfl

/-! ## The next claim -/

/-- On an empty list with room the first turn lists the claim. -/
theorem claimRegion_empty {h : Handle} {access : AccessMode} {offset count : UInt64}
    (hzero : l.count = 0) (hroom : 0 < l.capacity) (hcount : count ≠ 0)
    (hcheck : claimRegionCheck h access offset count = none) (waits : List Wait) :
    (ipmMemoryClaimRegion b h .success access offset count l waits).ending =
      .returned .success (some l.claimCounter) := by
  have hthrough : LetsThrough b (l.newClaim h access offset count) l.takeId := by
    rw [letsThrough_iff (show l.takeId.count < l.takeId.capacity from hzero ▸ hroom)]
    refine ⟨?_, show l.count < 2 ^ 32 by omega⟩
    intro e he
    obtain ⟨i, hi, -⟩ := ClaimList.mem_entries.mp he
    have hnone : i < l.count := hi
    omega
  obtain ⟨l', hturn⟩ := hthrough
  have hassert : ¬ (b.ndebug = false ∧ count = 0) := fun hbad => hcount hbad.2
  simp only [ipmMemoryClaimRegion, if_neg hassert, hcheck, ne_eq, not_true_eq_false, if_false]
  rw [claimRegionLoop, hturn]
  rfl

/-- On a list without slots it waits. -/
theorem claimRegion_noSlots (h : Handle) (access : AccessMode) (offset count : UInt64)
    (hzero : l.count = 0) (hcap : l.capacity = 0) (hcount : count ≠ 0)
    (hcheck : claimRegionCheck h access offset count = none) :
    (ipmMemoryClaimRegion b h .success access offset count l []).ending = .asleep := by
  have hturn : claimTurn b (l.newClaim h access offset count) l.takeId = .ret none l.takeId := by
    have hc : l.takeId.count = 0 := hzero
    have hk : l.takeId.capacity = 0 := hcap
    simp [claimTurn, claimScan, hc, hk, scan]
  have hassert : ¬ (b.ndebug = false ∧ count = 0) := fun hbad => hcount hbad.2
  simp only [ipmMemoryClaimRegion, if_neg hassert, hcheck, ne_eq, not_true_eq_false, if_false]
  rw [claimRegionLoop, hturn]

namespace RegionSys

/-- The call has returned, the mutex is free and the list is empty, and whoever may claim something
gets it without waiting. -/
structure Recovered (b : Build) (s : RegionSys) : Prop where
  returned : s.threads.map (·.point) = [.returned .success none]
  mutex : s.mutex = .free
  count : s.list.count = 0
  admitted : ∀ (h : Handle) (access : AccessMode) (offset count : UInt64) (waits : List Wait),
    ¬ (h.accessMode = .readOnly ∧ access = .readWrite) → count ≠ 0 →
    offset.toNat + count.toNat ≤ h.size.toNat →
    (ipmMemoryClaimRegion b h .success access offset count s.list waits).ending =
      .returned .success (some s.list.claimCounter)

theorem alone_removeAll (b : Build) (h : Handle) (l : ClaimList) :
    alone b (.removeAllActiveClaims h) l =
      match removeAllLoop b l.count l with
      | .ret _ l' =>
        some ⟨.free, l', [⟨.removeAllActiveClaims h, .returned .success none, 1, 1, none, false⟩]⟩
      | .stop _ _ => none := by
  rw [alone_release b l (fun _ _ _ _ hclaim => by cases hclaim), release,
    ipmMemoryRemoveAllActiveClaims, if_neg (not_not.mpr rfl)]
  cases removeAllLoop b l.count l with
  | ret u l' => rfl
  | stop w l' => rfl

/-- **When the list is recovered**: not when it is full, and not when it is longer than an `unsigned`
can say. Without the assertions neither matters. -/
theorem recovered_iff {h : Handle} (hle : l.count ≤ l.capacity) (hcap : l.capacity < 2 ^ 64) :
    (∃ s, alone b (.removeAllActiveClaims h) l = some s ∧ s.Recovered b) ↔
      0 < l.capacity ∧
        (b.ndebug = true ∨ l.count = 0 ∨ l.count < l.capacity ∧ l.count < 2 ^ 32) := by
  have hloop := removeAllLoop_returns_iff (b := b) l.count l le_rfl hle hcap
  rw [removalAsserts_forall_iff hle] at hloop
  rw [← hloop, alone_removeAll]
  constructor
  · rintro ⟨s, hs, hok⟩
    have hcapacity := removeAllLoop_capacity (b := b) l.count l
    cases hrun : removeAllLoop b l.count l with
    | stop w l' =>
      rw [hrun] at hs
      cases hs
    | ret u l' =>
      rw [hrun] at hs hcapacity
      obtain rfl := Option.some.inj hs
      refine ⟨?_, l', rfl, hok.count, hcapacity⟩
      by_contra hnone
      have hcap' : l'.capacity = l.capacity := hcapacity
      have hasleep := claimRegion_noSlots (b := b) ⟨1, 1, .readWrite⟩ .readWrite 0 1 hok.count
        (show l'.capacity = 0 by omega) (by decide) rfl
      have hthere := hok.admitted ⟨1, 1, .readWrite⟩ .readWrite 0 1 [] (by decide) (by decide)
        (by decide)
      rw [hasleep] at hthere
      cases hthere
  · rintro ⟨hroom, l', hrun, hzero, hcapacity⟩
    rw [hrun]
    refine ⟨_, rfl, rfl, rfl, hzero, ?_⟩
    intro h' access offset count waits haccess hcount hin
    refine claimRegion_empty hzero (by rw [hcapacity]; exact hroom) hcount ?_ waits
    exact (claimRegionCheck_eq_none_iff h' access offset count).mpr ⟨haccess, .inl hin⟩

/-- What a crashed process of one claim has left in a list of `capacity` slots. -/
def leftover (capacity : Nat) : ClaimList :=
  { listOf (sixteenAt 1 .readWrite 0) with capacity := capacity }

theorem recovered_leftover :
    ∃ s, alone ⟨false⟩ (.removeAllActiveClaims ⟨2, 4096, .readWrite⟩) (leftover 2) = some s ∧
      s.Recovered ⟨false⟩ :=
  (recovered_iff (by decide) (by decide)).mpr ⟨by decide, .inr (.inr ⟨by decide, by decide⟩)⟩

/-- The one slot taken is all there is: the removal stops at its assertion, on its very first turn. -/
theorem full_not_recovered :
    (leftover 1).count ≤ (leftover 1).capacity ∧
      (∃ l, removeAllLoop ⟨false⟩ (leftover 1).count (leftover 1) = .stop .assertion l) ∧
      ¬ ∃ s, alone ⟨false⟩ (.removeAllActiveClaims ⟨2, 4096, .readWrite⟩) (leftover 1) = some s ∧
        s.Recovered ⟨false⟩ := by
  have hstop : removeAllLoop ⟨false⟩ (leftover 1).count (leftover 1) =
      .stop .assertion (leftover 1).decCount := by
    show removeAllLoop ⟨false⟩ (0 + 1) (leftover 1) = _
    rw [removeAllLoop, if_pos (by decide), claimRemoveFromList_asserts rfl]
    · rfl
    · intro hassert
      exact absurd hassert.1 (by decide)
  refine ⟨by decide, ⟨_, hstop⟩, ?_⟩
  rintro ⟨s, hs, -⟩
  rw [alone_removeAll, hstop] at hs
  cases hs

end RegionSys

end Ipm
