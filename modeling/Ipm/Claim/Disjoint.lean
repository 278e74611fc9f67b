import Ipm.Claim.Answers

/-!
# Claims that have nothing to do with each other

Two handles that claim separate parts of a block need not know of each other, and a call of
`ipm_memory_claim_region` should go through at once when all that is listed is elsewhere or read. The
test asks for more: whichever of two ranges starts later is compared with its own end, which is behind
its start unless it wraps, so where the other one ends makes no difference. Of two handles, readers
alone are let through.
-/

set_option autoImplicit false

namespace Ipm

open Lib

variable {claim e : MemoryClaim}

/-- Ranges that do not wrap and have no byte in common. -/
structure MemoryClaim.Disjoint (a b : MemoryClaim) : Prop where
  left : a.NoWrap
  right : b.NoWrap
  apart : ¬ a.Overlaps b

/-- One ends where the other begins, or before. -/
theorem MemoryClaim.disjoint_of_le {a b : MemoryClaim} (hb : b.NoWrap)
    (hle : a.offset.toNat + a.size.toNat ≤ b.offset.toNat) : a.Disjoint b := by
  refine ⟨Nat.lt_of_le_of_lt hle (UInt64.toNat_lt _), hb, ?_⟩
  rintro ⟨x, ha, hx⟩
  have hlt := Nat.lt_of_lt_of_le ha.2 hle
  exact absurd hx.1 (Nat.not_le.mpr hlt)

/-- Neither writes. -/
def MemoryClaim.BothRead (a b : MemoryClaim) : Prop := a.access = .readOnly ∧ b.access = .readOnly

instance (a b : MemoryClaim) : Decidable (a.BothRead b) := inferInstanceAs (Decidable (_ ∧ _))

theorem MemoryClaim.NoWrap.offset_le (h : claim.NoWrap) : claim.offset ≤ claim.offset + claim.size := by
  rw [UInt64.le_iff_toNat_le, h.toNat_add]
  exact Nat.le_add_right _ _

/-- **Where the ranges are makes no difference**, as long as they do not wrap. -/
theorem claimsConflict_eq_false_iff (hproc : claim.procId ≠ e.procId) (hclaim : claim.NoWrap)
    (he : e.NoWrap) : claimsConflict claim e = false ↔ claim.BothRead e := by
  constructor
  · intro h
    by_contra hro
    have hwrites : ¬ (claim.access = .readOnly ∧ e.access = .readOnly) := hro
    rw [claimsConflict, if_neg hproc, if_neg hwrites] at h
    split at h
    · rename_i hgt
      -- the later of the two starts before its own end
      have hlt := UInt64.lt_of_lt_of_le hgt hclaim.offset_le
      simp [hlt] at h
    · split at h
      · rename_i hlt'
        have hlt := UInt64.lt_of_lt_of_le hlt' he.offset_le
        simp [hlt] at h
      · cases h
  · intro hro
    rw [claimsConflict, if_neg hproc]
    exact if_pos hro

/-- A handle's own claims never stand in its way. -/
theorem claimsConflict_own (hproc : claim.procId = e.procId) : claimsConflict claim e = false := by
  rw [claimsConflict]
  exact if_pos hproc

/-! ## The admission loop -/

/-- The request is listed in the first turn. -/
def LetsThrough (b : Build) (claim : MemoryClaim) (list : ClaimList) : Prop :=
  ∃ list', claimTurn b claim list = .ret (some .success) list'

/-- All that other handles have listed is elsewhere, or read by a request that reads. -/
def OutOfTheWay (claim : MemoryClaim) (list : ClaimList) : Prop :=
  ∀ e ∈ list.entries, e.procId ≠ claim.procId → claim.Disjoint e ∨ claim.BothRead e

/-- The scan comes to the end of the list when it finds nothing, and when it can get there. -/
theorem claimScan_eq_count_iff {list : ClaimList} :
    claimScan claim list = some list.count ↔
      (∀ e ∈ list.entries, claimsConflict claim e = false) ∧ list.count < 2 ^ 32 := by
  have hscan : list.count < 2 ^ 32 → claimScan claim list =
      some (scan (claimsConflict claim) list.claims 0 list.count) := by
    intro hlt
    simp only [claimScan, Nat.min_eq_left hlt.le, hlt, true_or, if_true]
  constructor
  · intro h
    have hlt : list.count < 2 ^ 32 := by
      simp only [claimScan, Option.ite_none_right_eq_some, Option.some.injEq] at h
      obtain ⟨hend, hcount⟩ := h
      omega
    rw [hscan hlt, Option.some.injEq, scan_eq_end_iff] at h
    exact ⟨h, hlt⟩
  · rintro ⟨hnone, hlt⟩
    rw [hscan hlt, Option.some.injEq, scan_eq_end_iff]
    exact hnone

theorem letsThrough_iff {b : Build} {list : ClaimList} (hroom : list.count < list.capacity) :
    LetsThrough b claim list ↔
      (∀ e ∈ list.entries, claimsConflict claim e = false) ∧ list.count < 2 ^ 32 := by
  rw [← claimScan_eq_count_iff]
  constructor
  · rintro ⟨list', h⟩
    cases hscan : claimScan claim list with
    | none =>
      simp only [claimTurn, hscan] at h
      cases h
    | some i =>
      simp only [claimTurn, hscan] at h
      split at h
      · rename_i hend
        rw [hend.1]
      · cases h
  · intro hscan
    have hlt := (claimScan_eq_count_iff.mp hscan).2
    refine ⟨list.putAt (list.insertPos claim) claim, ?_⟩
    simp only [claimTurn, hscan]
    rw [if_pos ⟨trivial, hroom.ne⟩, claimAddToList_room hroom (by omega)]
    rfl

/-- **Disjoint regions do get in each other's way, unless nobody writes**: of two handles only readers
pass the test, and a request is let through at once exactly when it reads and so do all that other
handles have listed. -/
theorem disjoint_through_iff (b : Build) (claim : MemoryClaim) :
    (∀ other : MemoryClaim, claim.procId ≠ other.procId → claim.Disjoint other →
      (claimsConflict claim other = false ∧ claimsConflict other claim = false ↔
        claim.BothRead other)) ∧
    ∀ list : ClaimList, list.count < list.capacity → OutOfTheWay claim list →
      (LetsThrough b claim list ↔
        (∀ e ∈ list.entries, e.procId ≠ claim.procId → claim.BothRead e) ∧ list.count < 2 ^ 32) := by
  have hpair : ∀ other : MemoryClaim, claim.procId ≠ other.procId → claim.Disjoint other →
      (claimsConflict claim other = false ↔ claim.BothRead other) := fun other hproc hdis =>
    claimsConflict_eq_false_iff hproc hdis.left hdis.right
  refine ⟨fun other hproc hdis => ?_, fun list hroom hout => ?_⟩
  · rw [claimsConflict_comm other claim, and_self]
    exact hpair other hproc hdis
  · rw [letsThrough_iff hroom]
    refine and_congr_left' ⟨fun h e he hproc => ?_, fun h e he => ?_⟩
    · rcases hout e he hproc with hdis | hread
      · exact (hpair e hproc.symm hdis).mp (h e he)
      · exact hread
    · by_cases hproc : e.procId = claim.procId
      · exact claimsConflict_own hproc.symm
      · rw [claimsConflict, if_neg (Ne.symm hproc)]
        exact if_pos (h e he hproc)

/-- What handle `procId` claims of the first bytes of a block. -/
def sixteenAt (procId : UInt64) (access : AccessMode) (offset : UInt64) : MemoryClaim :=
  { claimId := procId, procId := procId, access := access, offset := offset, size := 16 }

/-- A list of one page with one claim in it. -/
def listOf (claim : MemoryClaim) : ClaimList :=
  { zeroList with count := 1, capacity := pageCapacity, claims := fun _ => claim }

theorem mem_listOf {c : MemoryClaim} : c ∈ (listOf claim).entries ↔ c = claim := by
  rw [ClaimList.mem_entries]
  constructor
  · rintro ⟨i, -, rfl⟩
    rfl
  · rintro rfl
    exact ⟨0, Nat.one_pos, rfl⟩

theorem disjoint_sixteen (procId procId' : UInt64) (access access' : AccessMode) :
    (sixteenAt procId access 0).Disjoint (sixteenAt procId' access' 16) := by
  apply MemoryClaim.disjoint_of_le
  · show (16 + 16 : Nat) < _
    decide
  · exact le_refl 16

theorem outOfTheWay_listOf (procId procId' : UInt64) (access access' : AccessMode) :
    OutOfTheWay (sixteenAt procId access 0) (listOf (sixteenAt procId' access' 16)) := by
  intro e he _
  rw [mem_listOf.mp he]
  exact .inl (disjoint_sixteen _ _ _ _)

theorem disjoint_through_readers :
    (sixteenAt 1 .readOnly 0).Disjoint (sixteenAt 2 .readOnly 16) ∧
      claimsConflict (sixteenAt 1 .readOnly 0) (sixteenAt 2 .readOnly 16) = false ∧
      LetsThrough ⟨false⟩ (sixteenAt 1 .readOnly 0) (listOf (sixteenAt 2 .readOnly 16)) := by
  have hdis := disjoint_sixteen 1 2 .readOnly .readOnly
  have hread : (sixteenAt 1 .readOnly 0).BothRead (sixteenAt 2 .readOnly 16) := ⟨rfl, rfl⟩
  refine ⟨hdis, (((disjoint_through_iff ⟨false⟩ _).1 _ (by decide) hdis).mpr hread).1, ?_⟩
  refine ((disjoint_through_iff _ _).2 _ (by decide) (outOfTheWay_listOf _ _ _ _)).mpr ⟨?_, by decide⟩
  intro e he _
  rw [mem_listOf.mp he]
  exact hread

/-- Two writers of neighbouring regions: they conflict both ways, and the second of them waits. -/
theorem disjoint_writers_blocked :
    (sixteenAt 1 .readWrite 0).Disjoint (sixteenAt 2 .readWrite 16) ∧
      claimsConflict (sixteenAt 1 .readWrite 0) (sixteenAt 2 .readWrite 16) = true ∧
      claimsConflict (sixteenAt 2 .readWrite 16) (sixteenAt 1 .readWrite 0) = true ∧
      OutOfTheWay (sixteenAt 1 .readWrite 0) (listOf (sixteenAt 2 .readWrite 16)) ∧
      ¬ LetsThrough ⟨false⟩ (sixteenAt 1 .readWrite 0) (listOf (sixteenAt 2 .readWrite 16)) := by
  refine ⟨disjoint_sixteen _ _ _ _, by decide, by decide, outOfTheWay_listOf _ _ _ _, ?_⟩
  intro hthrough
  have hnone := ((letsThrough_iff (by decide)).mp hthrough).1
  exact absurd (hnone _ (mem_listOf.mpr rfl)) (by decide)

end Ipm
