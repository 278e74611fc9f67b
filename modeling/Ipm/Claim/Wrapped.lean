import Ipm.Claim.Disjoint

/-!
# Requests that wrap

When the scan of `ipm_memory_claim_region` finds no conflict, the request should share no byte with
what other handles have listed, readers apart. For a request that ends below `2 ^ 64` it does not. The
size check lets longer ones past it as well, and of those `claims_conflict` sees the end only as it
comes out in 64 bits: a claim that begins behind that and reaches into the request is passed over.
-/

set_option autoImplicit false

namespace Ipm

open Lib

variable {claim e : MemoryClaim}

/-- No byte in common with what other handles have listed, unless neither writes. -/
def KeepsClear (claim : MemoryClaim) (list : ClaimList) : Prop :=
  ∀ e ∈ list.entries, e.NoWrap → e.procId ≠ claim.procId → ¬ claim.BothRead e → ¬ claim.Overlaps e

/-- A scan that finds nothing is right. -/
def ScanSound (claim : MemoryClaim) : Prop :=
  ∀ list : ClaimList, claimScan claim list = some list.count → KeepsClear claim list

/-- Only a claim that begins before the request can be missed. -/
theorem claimsConflict_of_le (hproc : claim.procId ≠ e.procId) (hwrites : ¬ claim.BothRead e)
    (he : e.NoWrap) (hov : claim.Overlaps e) (hle : claim.offset.toNat ≤ e.offset.toNat) :
    claimsConflict claim e = true := by
  obtain ⟨x, ⟨hx, -⟩, -, hend⟩ := hov
  have hro : ¬ (claim.access = .readOnly ∧ e.access = .readOnly) := hwrites
  have hgt : ¬ claim.offset > e.offset := UInt64.not_lt.mpr (UInt64.le_iff_toNat_le.mpr hle)
  rw [claimsConflict, if_neg hproc, if_neg hro, if_neg hgt]
  split
  · rw [decide_eq_true_eq, UInt64.lt_iff_toNat_lt, he.toNat_add]
    exact Nat.lt_of_le_of_lt hx hend
  · rfl

theorem MemoryClaim.readWrite_of_not_bothRead {a b : MemoryClaim} (h : ¬ a.BothRead b) :
    a.access = .readWrite ∨ b.access = .readWrite := by
  cases ha : a.access with
  | readWrite => exact .inl rfl
  | readOnly =>
    cases hb : b.access with
    | readWrite => exact .inr rfl
    | readOnly => exact absurd ⟨ha, hb⟩ h

/-- Behind the last byte of all there is nothing a listed claim could cover. -/
theorem scanSound_of (h : claim.NoWrap ∨ claim.offset.toNat = 2 ^ 64 - 1) : ScanSound claim := by
  intro list hscan e hmem he hproc hwrites hov
  have hnone := (claimScan_eq_count_iff.mp hscan).1 e hmem
  have hconflict : claimsConflict claim e = true := by
    rcases h with hnowrap | hlast
    · exact claimsConflict_of_overlaps hnowrap he hproc.symm
        (MemoryClaim.readWrite_of_not_bothRead hwrites) hov
    · apply claimsConflict_of_le hproc.symm hwrites he hov
      obtain ⟨x, ⟨hx, -⟩, -, hend⟩ := hov
      have hlt : e.offset.toNat + e.size.toNat < 2 ^ 64 := he
      omega
  exact absurd (hnone.symm.trans hconflict) nofun

/-- Two bytes of another handle, the last before the request and its first. -/
def passedOver (claim : MemoryClaim) : MemoryClaim :=
  { claimId := 0, procId := claim.procId + 1, access := .readWrite, offset := claim.offset - 1,
    size := 2 }

/-- The end of a request that wraps comes out before its beginning. -/
theorem toNat_end_of_wraps (hwrap : ¬ claim.NoWrap) :
    1 ≤ claim.offset.toNat ∧
      (claim.offset + claim.size).toNat = claim.offset.toNat + claim.size.toNat - 2 ^ 64 := by
  have hover : 2 ^ 64 ≤ claim.offset.toNat + claim.size.toNat := Nat.not_lt.mp hwrap
  have hoffset := claim.offset.toNat_lt
  have hsize := claim.size.toNat_lt
  refine ⟨by omega, ?_⟩
  rw [UInt64.toNat_add]
  omega

theorem toNat_offset_passedOver (hpos : 1 ≤ claim.offset.toNat) :
    (passedOver claim).offset.toNat = claim.offset.toNat - 1 :=
  UInt64.toNat_sub_of_le _ _ (UInt64.le_iff_toNat_le.mpr hpos)

theorem procId_passedOver_ne (claim : MemoryClaim) : (passedOver claim).procId ≠ claim.procId := by
  intro h
  have hnat : (claim.procId + 1).toNat = claim.procId.toNat := congrArg UInt64.toNat h
  have hlt := claim.procId.toNat_lt
  rw [UInt64.toNat_add, UInt64.toNat_one] at hnat
  omega

theorem claimsConflict_passedOver (hwrap : ¬ claim.NoWrap) :
    claimsConflict claim (passedOver claim) = false := by
  obtain ⟨hpos, hend⟩ := toNat_end_of_wraps hwrap
  have hoff := toNat_offset_passedOver hpos
  have hro : ¬ (claim.access = .readOnly ∧ (passedOver claim).access = .readOnly) := fun h =>
    absurd h.2 nofun
  have hgt : claim.offset > (passedOver claim).offset := by
    rw [gt_iff_lt, UInt64.lt_iff_toNat_lt, hoff]
    omega
  rw [claimsConflict, if_neg (procId_passedOver_ne claim).symm, if_neg hro, if_pos hgt,
    decide_eq_false_iff_not, UInt64.lt_iff_toNat_lt, hend, hoff]
  have hsize := claim.size.toNat_lt
  omega

theorem noWrap_passedOver (hpos : 1 ≤ claim.offset.toNat) (hlast : claim.offset.toNat ≠ 2 ^ 64 - 1) :
    (passedOver claim).NoWrap := by
  have hoffset := claim.offset.toNat_lt
  show (passedOver claim).offset.toNat + 2 < 2 ^ 64
  rw [toNat_offset_passedOver hpos]
  omega

/-- The first byte of the request is in both. -/
theorem overlaps_passedOver (hwrap : ¬ claim.NoWrap) : claim.Overlaps (passedOver claim) := by
  have hoff := toNat_offset_passedOver (toNat_end_of_wraps hwrap).1
  have hover : 2 ^ 64 ≤ claim.offset.toNat + claim.size.toNat := Nat.not_lt.mp hwrap
  have hoffset := claim.offset.toNat_lt
  refine ⟨claim.offset.toNat, ⟨Nat.le_refl _, by omega⟩, by omega, ?_⟩
  show claim.offset.toNat < (passedOver claim).offset.toNat + 2
  omega

theorem claimScan_listOf (h : claimsConflict claim e = false) :
    claimScan claim (listOf e) = some (listOf e).count := by
  apply claimScan_eq_count_iff.mpr
  refine ⟨?_, Nat.one_lt_two_pow (by decide)⟩
  intro c hc
  rw [mem_listOf.mp hc]
  exact h

/-- Any other request that wraps has something it is not kept clear of. -/
theorem not_scanSound (hwrap : ¬ claim.NoWrap) (hlast : claim.offset.toNat ≠ 2 ^ 64 - 1) :
    ¬ ScanSound claim := by
  intro hsound
  have hclear := hsound _ (claimScan_listOf (claimsConflict_passedOver hwrap))
  apply hclear _ (mem_listOf.mpr rfl) (noWrap_passedOver (toNat_end_of_wraps hwrap).1 hlast)
  · exact procId_passedOver_ne claim
  · intro hread
    cases hread.2
  · exact overlaps_passedOver hwrap

/-- **When no real conflict is missed**: never by the test, for ranges that do not wrap, and never by
the scan, unless the request wraps. -/
theorem conflicts_found_iff (claim : MemoryClaim) :
    ((∀ other : MemoryClaim, claimsConflict claim other = claimsConflict other claim) ∧
      (∀ other : MemoryClaim, claim.procId ≠ other.procId →
        (claim.access = .readWrite ∨ other.access = .readWrite) → claim.NoWrap → other.NoWrap →
        claim.Overlaps other → claimsConflict claim other = true) ∧
      ScanSound claim) ↔
      claim.NoWrap ∨ claim.offset.toNat = 2 ^ 64 - 1 := by
  constructor
  · rintro ⟨-, -, hsound⟩
    by_contra hnot
    obtain ⟨hwrap, hlast⟩ := not_or.mp hnot
    exact not_scanSound hwrap hlast hsound
  · intro h
    refine ⟨claimsConflict_comm claim, ?_, scanSound_of h⟩
    intro other hproc hrw hclaim hother hov
    exact claimsConflict_of_overlaps hclaim hother hproc hrw hov

/-- `[100, 2 ^ 64 + 50)` of a page, beside a listed writer of `[60, 200)`. -/
theorem wrapped_request_passes_over :
    claimRegionCheck ⟨1, 4096, .readWrite⟩ .readWrite 100 0xffffffffffffffce = none ∧
      claimScan ⟨5, 1, .readWrite, 100, 0xffffffffffffffce⟩ (listOf ⟨4, 2, .readWrite, 60, 140⟩) =
        some (listOf ⟨4, 2, .readWrite, 60, 140⟩).count ∧
      ¬ KeepsClear ⟨5, 1, .readWrite, 100, 0xffffffffffffffce⟩ (listOf ⟨4, 2, .readWrite, 60, 140⟩) := by
  refine ⟨by decide, by decide, ?_⟩
  intro hclear
  have hnowrap : (⟨4, 2, .readWrite, 60, 140⟩ : MemoryClaim).NoWrap := by
    show 60 + 140 < 2 ^ 64
    decide
  apply hclear _ (mem_listOf.mpr rfl) hnowrap (by decide) (by decide)
  exact ⟨100, ⟨by decide, by decide⟩, by decide, by decide⟩

end Ipm
