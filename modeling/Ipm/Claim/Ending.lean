import Ipm.Claim.Ledger

/-!
# How a critical section ends

An assertion can cut a critical section of a region call short, or a shift that leaves the slots, or a
loop that does not get anywhere. In a run as it should be none of them does (`LedgerOk.ending`): what is
left is `assert(count > 0)`, which is about the request.
-/

set_option autoImplicit false

namespace Ipm

open Lib

namespace ClaimSys

/-- Why the process is stopped in a critical section. -/
def ending (b : Build) (s : ClaimSys) : ClaimEvent → Option Stop
  | .claim h lock access offset count =>
    if b.ndebug = false ∧ count = 0 then some .assertion
    else if (claimRegionCheck h access offset count).isSome then none
    else if lock ≠ .success then none
    else (claimRegionTurn b (s.list.newClaim h access offset count) s.list.takeId).stopped?
  | .recheck i => (s.woken[i]?).bind fun claim => (claimRegionTurn b claim s.list).stopped?
  | .waitFails _ => none
  | .spurious _ => none
  | .signal _ => none
  | .releaseRegion _ lock claimId => (ipmMemoryReleaseRegion b lock claimId s.list).stopped?
  | .releaseAll h lock => (ipmMemoryReleaseAll b lock h.accessId s.list).stopped?
  | .removeAll lock => (ipmMemoryRemoveAllActiveClaims b lock s.list).stopped?
  | .close h lock => (ipmMemoryReleaseAll b lock h.accessId s.list).stopped?

variable {b : Build} {s : ClaimSys} {list : ClaimList} {lock : IpmResult}

/-- A turn of the admission loop: the slot it puts the claim in is there. -/
theorem turn_returns (claim : MemoryClaim) (hle : list.count ≤ list.capacity)
    (hcap : list.capacity < 2 ^ 31) : (claimRegionTurn b claim list).stopped? = none := by
  unfold claimRegionTurn
  cases ha : admits list claim with
  | true =>
    have hlt : list.count < list.capacity := Nat.lt_of_le_of_ne hle (admits_iff.mp ha).2
    obtain ⟨l, hadd, -, -⟩ := claimAddToList_count (b := b) hlt hcap
    rw [if_pos rfl, hadd]
    rfl
  | false =>
    rw [if_neg nofun]
    rfl

/-- A region that is given back is the last entry. -/
theorem LedgerOk.release_returns {id : UInt64} (h : LedgerOk s)
    (hclean : lock = .success → s.Removable b ∧ ∃ pre c, s.list.entries = pre ++ [c] ∧
      c.claimId = id ∧ ∀ e ∈ pre, e.claimId ≠ id) :
    (ipmMemoryReleaseRegion b lock id s.list).stopped? = none := by
  unfold ipmMemoryReleaseRegion
  split
  · rfl
  · rename_i hlock
    obtain ⟨hrem, pre, c, hent, hid, hpre⟩ := hclean (not_not.mp hlock)
    have hcount : s.list.count = pre.length + 1 := by
      rw [← s.list.length_entries, hent, List.length_append]
      rfl
    have hfirst : ∀ i < pre.length, (s.list.claims i).claimId ≠ id := by
      intro i hi
      rw [ClaimList.claims_before hent hi]
      exact hpre _ (List.getElem_mem hi)
    have hslot : (s.list.claims pre.length).claimId = id := by
      rw [ClaimList.claims_at hent]
      exact hid
    have hlt : pre.length < s.list.count := hcount ▸ Nat.lt_succ_self _
    rw [claimRemoveFromList_found h.le_capacity h.capacity_lt hrem hlt hslot hfirst]
    rfl

/-- A purge, of nothing or of a tail. -/
theorem LedgerOk.purge_returns {id : UInt64} (h : LedgerOk s)
    (hclean : lock = .success → s.Purgeable b id) :
    (ipmMemoryReleaseAll b lock id s.list).stopped? = none := by
  have hcount : s.list.count < 2 ^ 31 := h.le_capacity.trans_lt h.capacity_lt
  unfold ipmMemoryReleaseAll
  split
  · rfl
  · rename_i hlock
    have hloop : ∃ l, releaseAllLoop b id s.list.count 0 s.list = .ret () l := by
      rcases hclean (not_not.mp hlock) with hnone | ⟨hrem, hids, htail⟩
      · exact ⟨_, releaseAllLoop_none hcount hnone _ 0 (Nat.le_add_left _ _)⟩
      · obtain ⟨l, hrun, -, -⟩ := releaseAllLoop_ownTail _ 0 s.list h.le_capacity h.capacity_lt hrem hids
          htail (fun j hj => absurd hj (Nat.not_lt_zero j)) (Nat.le_add_left _ _)
        exact ⟨l, hrun⟩
    obtain ⟨l, hrun⟩ := hloop
    rw [hrun]
    rfl

theorem LedgerOk.clear_returns (h : LedgerOk s)
    (hclean : lock = .success → s.list.entries = [] ∨ s.Removable b) :
    (ipmMemoryRemoveAllActiveClaims b lock s.list).stopped? = none := by
  unfold ipmMemoryRemoveAllActiveClaims
  split
  · rfl
  · rename_i hlock
    have hloop : ∃ l, removeAllLoop b s.list.count s.list = .ret () l := by
      rcases hclean (not_not.mp hlock) with hnil | hrem
      · have hzero : s.list.count = 0 := by
          rw [← s.list.length_entries, hnil]
          rfl
        refine ⟨s.list, ?_⟩
        rw [hzero, removeAllLoop, if_neg (not_not.mpr hzero)]
      · obtain ⟨l, hrun, -, -⟩ :=
          removeAllLoop_empties _ _ h.le_capacity h.capacity_lt hrem (Nat.le_refl _)
        exact ⟨l, hrun⟩
    obtain ⟨l, hrun⟩ := hloop
    rw [hrun]
    rfl

/-- **A clean critical section comes to its end**, unless it is asked for nothing. -/
theorem LedgerOk.ending {a : ClaimEvent} {why : Stop} (h : LedgerOk s) (ha : s.Clean b a)
    (hwhy : why ∈ s.ending b a) :
    why = .assertion ∧ b.ndebug = false ∧ ∃ hd lock access offset, a = .claim hd lock access offset 0 := by
  have hnone : ∀ {o : Option Stop}, o = none → why ∉ o := by
    rintro _ rfl
    exact nofun
  cases a with
  | claim hd lock access offset count =>
    rw [ClaimSys.ending] at hwhy
    split at hwhy
    · rename_i hassert
      obtain ⟨hndebug, rfl⟩ := hassert
      exact ⟨(Option.some.inj hwhy).symm, hndebug, hd, lock, access, offset, rfl⟩
    · split at hwhy
      · cases hwhy
      · split at hwhy
        · cases hwhy
        · exact absurd hwhy (hnone (turn_returns _ h.le_capacity h.capacity_lt))
  | recheck i =>
    obtain ⟨claim, -, hwhy⟩ := Option.bind_eq_some_iff.mp hwhy
    exact absurd hwhy (hnone (turn_returns claim h.le_capacity h.capacity_lt))
  | waitFails i => cases hwhy
  | spurious i => cases hwhy
  | signal i => cases hwhy
  | releaseRegion hd lock id => exact absurd hwhy (hnone (h.release_returns ha))
  | releaseAll hd lock => exact absurd hwhy (hnone (h.purge_returns ha))
  | removeAll lock => exact absurd hwhy (hnone (h.clear_returns ha))
  | close hd lock => exact absurd hwhy (hnone (h.purge_returns ha))

end ClaimSys

end Ipm
