import Mathlib.Algebra.GroupWithZero.Nat
import Mathlib.Data.List.Perm.Basic
import Mathlib.Data.List.Nodup
import Mathlib.Data.List.Range

/-!
# Tickets

A counter that is read and incremented in one step hands out `f 0`, `f 1`, `f 2`, …, where `f` is what
the counter holds after so many steps. Whoever holds which, and in whatever order they are listed, the
tickets handed out so far are the first `n` values of `f`. They are different as long as `f` does not
repeat, which for a counter of fixed width is as long as it has not gone all the way round.
-/

set_option autoImplicit false

namespace Lib

variable {α : Type*} {f : Nat → α} {n : Nat} {ids ids' : List α}

/-- `ids` are the first `n` tickets, in some order. -/
def Issued (f : Nat → α) (n : Nat) (ids : List α) : Prop := ids.Perm ((List.range n).map f)

theorem Issued.zero (f : Nat → α) : Issued f 0 [] := List.Perm.refl _

/-- One more ticket. -/
theorem Issued.next (h : Issued f n ids) (hids : ids'.Perm (f n :: ids)) : Issued f (n + 1) ids' := by
  rw [Issued, List.range_succ, List.map_append]
  have hlast : (f n :: ids).Perm ((List.range n).map f ++ [f n]) :=
    (h.cons (f n)).trans (List.perm_append_singleton _ _).symm
  exact hids.trans hlast

theorem Issued.length_eq (h : Issued f n ids) : ids.length = n := by
  rw [List.Perm.length_eq h, List.length_map, List.length_range]

/-- Nobody has another's ticket. -/
theorem Issued.nodup (h : Issued f n ids) (hf : ∀ i < n, ∀ j < n, f i = f j → i = j) : ids.Nodup := by
  apply (List.Perm.nodup_iff h).mpr
  apply List.Nodup.map_on _ List.nodup_range
  intro i hi j hj heq
  exact hf i (List.mem_range.mp hi) j (List.mem_range.mp hj) heq

/-- A counter of 64 bits that starts at zero. -/
theorem ofNat_injOn {i j : Nat} (hi : i < 2 ^ 64) (hj : j < 2 ^ 64)
    (h : UInt64.ofNat i = UInt64.ofNat j) : i = j := by
  have hnat := congrArg UInt64.toNat h
  rw [UInt64.toNat_ofNat_of_lt' hi, UInt64.toNat_ofNat_of_lt' hj] at hnat
  exact hnat

end Lib
