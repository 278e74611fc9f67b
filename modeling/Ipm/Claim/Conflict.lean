import Ipm.Claim.List

/-!
# `claims_conflict` against byte ranges

The admission test compares wrapping ends of ranges. What it is *for* is stated here over plain
integers: two claims of different handles, one of them writing, may not share a byte. The test
never misses such a pair as long as neither range wraps, and it gives the same answer in both
argument orders whatever the ranges are.

It errs on the other side: for `claim1.offset > claim2.offset` it compares with the end of
`claim1`'s own range, so two disjoint ranges conflict as well.
-/

set_option autoImplicit false

namespace Ipm

/-- Byte `x` belongs to the claimed range, read without wrapping. -/
def MemoryClaim.Covers (c : MemoryClaim) (x : Nat) : Prop :=
  c.offset.toNat ≤ x ∧ x < c.offset.toNat + c.size.toNat

/-- The two ranges share a byte. -/
def MemoryClaim.Overlaps (a b : MemoryClaim) : Prop := ∃ x, a.Covers x ∧ b.Covers x

/-- The end of the range is a `size_t`. -/
def MemoryClaim.NoWrap (c : MemoryClaim) : Prop := c.offset.toNat + c.size.toNat < 2 ^ 64

theorem MemoryClaim.NoWrap.toNat_add {c : MemoryClaim} (h : c.NoWrap) :
    (c.offset + c.size).toNat = c.offset.toNat + c.size.toNat := by
  rw [UInt64.toNat_add]
  exact Nat.mod_eq_of_lt h

/-- The answer does not depend on the argument order, wrapping ranges included. -/
theorem claimsConflict_comm (a b : MemoryClaim) : claimsConflict a b = claimsConflict b a := by
  unfold claimsConflict
  by_cases hp : a.procId = b.procId
  · rw [if_pos hp, if_pos hp.symm]
  rw [if_neg hp, if_neg (Ne.symm hp)]
  by_cases hro : a.access = .readOnly ∧ b.access = .readOnly
  · rw [if_pos hro, if_pos hro.symm]
  have hro' : ¬ (b.access = .readOnly ∧ a.access = .readOnly) := fun h => hro h.symm
  rw [if_neg hro, if_neg hro']
  by_cases hgt : a.offset > b.offset
  · have hnot : ¬ b.offset > a.offset := UInt64.not_lt.mpr (UInt64.le_of_lt hgt)
    rw [if_pos hgt, if_neg hnot, if_pos hgt]
  · by_cases hlt : a.offset < b.offset
    · rw [if_neg hgt, if_pos hlt, if_pos hlt]
    · rw [if_neg hgt, if_neg hlt, if_neg hlt, if_neg hgt]

/-- **No real conflict is missed.** -/
theorem claimsConflict_of_overlaps {a b : MemoryClaim} (ha : a.NoWrap) (hb : b.NoWrap)
    (hproc : a.procId ≠ b.procId) (hrw : a.access = .readWrite ∨ b.access = .readWrite)
    (hov : a.Overlaps b) : claimsConflict a b = true := by
  obtain ⟨x, ⟨hax, hxa⟩, hbx, hxb⟩ := hov
  have hro : ¬ (a.access = .readOnly ∧ b.access = .readOnly) := by
    rintro ⟨h₁, h₂⟩
    rcases hrw with h | h
    · rw [h₁] at h; cases h
    · rw [h₂] at h; cases h
  unfold claimsConflict
  rw [if_neg hproc, if_neg hro]
  split
  · simp only [decide_eq_true_eq, UInt64.lt_iff_toNat_lt, ha.toNat_add]
    omega
  · split
    · simp only [decide_eq_true_eq, UInt64.lt_iff_toNat_lt, hb.toNat_add]
      omega
    · rfl

/-! ## `claim_encompasses_other` -/

/-- `claim_encompasses_other`. Nothing calls it. -/
def claimEncompassesOther (claim1 claim2 : MemoryClaim) : Bool :=
  if claim1.procId ≠ claim2.procId ∨ claim1.access ≠ claim2.access then false
  else decide (claim1.offset ≥ claim2.offset ∧
    claim1.offset + claim1.size ≥ claim2.offset + claim2.size)

/-- Every byte of `b` is one of `a`. -/
def MemoryClaim.Includes (a b : MemoryClaim) : Prop := ∀ x, b.Covers x → a.Covers x

theorem MemoryClaim.includes_iff {a b : MemoryClaim} (hpos : 0 < b.size.toNat) :
    a.Includes b ↔ a.offset.toNat ≤ b.offset.toNat ∧
      b.offset.toNat + b.size.toNat ≤ a.offset.toNat + a.size.toNat := by
  constructor
  · intro h
    have hfirst : a.Covers b.offset.toNat := h _ ⟨Nat.le_refl _, Nat.lt_add_of_pos_right hpos⟩
    have hlast : a.Covers (b.offset.toNat + (b.size.toNat - 1)) :=
      h _ ⟨Nat.le_add_right _ _, by omega⟩
    exact ⟨hfirst.1, by have := hlast.2; omega⟩
  · rintro ⟨hfirst, hlast⟩ x ⟨hx, hx'⟩
    exact ⟨hfirst.trans hx, hx'.trans_le hlast⟩

/-- **It compares the beginnings the wrong way round**: of two claims of one handle with one access, it
tells rightly whether the first includes the second if they begin together or the second ends later, and
never else. -/
theorem claimEncompassesOther_right_iff {a b : MemoryClaim} (ha : a.NoWrap) (hb : b.NoWrap)
    (hproc : a.procId = b.procId) (haccess : a.access = b.access) (hpos : 0 < b.size.toNat) :
    (claimEncompassesOther a b = true ↔ a.Includes b) ↔
      a.offset = b.offset ∨ a.offset.toNat + a.size.toNat < b.offset.toNat + b.size.toNat := by
  have hanswer : claimEncompassesOther a b = true ↔ b.offset.toNat ≤ a.offset.toNat ∧
      b.offset.toNat + b.size.toNat ≤ a.offset.toNat + a.size.toNat := by
    unfold claimEncompassesOther
    rw [if_neg (not_or.mpr ⟨not_not.mpr hproc, not_not.mpr haccess⟩)]
    rw [decide_eq_true_eq, ge_iff_le, ge_iff_le, UInt64.le_iff_toNat_le, UInt64.le_iff_toNat_le,
      ha.toNat_add, hb.toNat_add]
  rw [hanswer, MemoryClaim.includes_iff hpos, ← UInt64.toNat_inj]
  omega

end Ipm
