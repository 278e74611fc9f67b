import Mathlib.Algebra.BigOperators.Group.Finset.Basic
import Mathlib.Algebra.GroupWithZero.Nat
import Mathlib.Data.Finset.Dedup
import Mathlib.Logic.Relation
import Ipm.Lib.LockTable

/-!
# A lock service

Objects that come into use and go out of use, clients that hold a handle of an object under an identity
of its own, and for each object a table of what is held of it. A handle is closed only when nothing is
held under its identity, and what comes into a table comes from a handle of the object.

Three things hold of such a service whatever it serves: the identities of an object are distinct, whatever
is held is held under the identity of a handle, and what is held of one object is compatible. So an object
without handles has nothing held of it.
-/

set_option autoImplicit false

namespace Lib

/-- Objects `κ`, identities `η`, and what can be held, `ρ`. -/
structure LockService (κ η ρ : Type*) where
  handles : List (κ × η)
  table : κ → Multiset ρ

namespace LockService

variable {κ η ρ : Type*}

def empty : LockService κ η ρ := { handles := [], table := fun _ => 0 }

variable {owner : ρ → η} {conflict : ρ → ρ → Prop} {s s' : LockService κ η ρ}

/-- `s` with `M` as the table of `n`. -/
def put [DecidableEq κ] (s : LockService κ η ρ) (n : κ) (M : Multiset ρ) : LockService κ η ρ :=
  { s with table := Function.update s.table n M }

theorem table_put [DecidableEq κ] (s : LockService κ η ρ) (n m : κ) (M : Multiset ρ) :
    (s.put n M).table m = if m = n then M else s.table m :=
  Function.update_apply _ _ _ _

inductive Step [DecidableEq κ] (owner : ρ → η) (conflict : ρ → ρ → Prop) (s : LockService κ η ρ) :
    LockService κ η ρ → Prop
  | open (n : κ) (h : η) (new : (n, h) ∉ s.handles) :
      Step owner conflict s { s with handles := s.handles ++ [(n, h)] }
  | close {i : ℕ} {n : κ} {h : η} (hget : s.handles[i]? = some (n, h))
      (free : ∀ c ∈ s.table n, owner c ≠ h) :
      Step owner conflict s { s with handles := s.handles.eraseIdx i }
  | table {n : κ} {M : Multiset ρ} (hstep : TableStep conflict (s.table n) M)
      (owned : ∀ c ∈ M, (n, owner c) ∈ s.handles) :
      Step owner conflict s (s.put n M)

/-- What holds of every service. -/
structure Ok (owner : ρ → η) (conflict : ρ → ρ → Prop) (s : LockService κ η ρ) : Prop where
  distinct : s.handles.Nodup
  owned : ∀ n, ∀ c ∈ s.table n, (n, owner c) ∈ s.handles
  compatible : ∀ n, Compatible conflict (s.table n)

theorem Ok.empty : Ok owner conflict (empty : LockService κ η ρ) where
  distinct := List.nodup_nil
  owned := fun _ c hc => absurd hc (Multiset.notMem_zero c)
  compatible := fun _ => compatible_zero

/-- An object that nobody has a handle of has nothing held of it. -/
theorem Ok.table_eq_zero (h : Ok owner conflict s) {n : κ} (hnone : ∀ id, (n, id) ∉ s.handles) :
    s.table n = 0 :=
  Multiset.eq_zero_of_forall_notMem fun c hc => hnone _ (h.owned n c hc)

variable [DecidableEq κ]

theorem Ok.step (hsymm : ∀ a b, conflict a b → conflict b a) (hirr : ∀ a, ¬ conflict a a)
    (h : Ok owner conflict s) (hs : Step owner conflict s s') : Ok owner conflict s' := by
  cases hs with
  | «open» n id hnew =>
    refine ⟨?_, fun m c hc => List.mem_append_left _ (h.owned m c hc), h.compatible⟩
    exact List.nodup_append.mpr ⟨h.distinct, List.nodup_singleton _, fun x hx y hy hxy => by
      obtain rfl := List.mem_singleton.mp hy
      exact hnew (hxy ▸ hx)⟩
  | @close i n id hget hfree =>
    refine ⟨h.distinct.sublist (List.eraseIdx_sublist _ _), fun m c hc => ?_, h.compatible⟩
    -- the handle that is closed is not the one it is held under
    obtain ⟨j, hj⟩ := List.mem_iff_getElem?.mp (h.owned m c hc)
    refine List.mem_eraseIdx_iff_getElem?.mpr ⟨j, ?_, hj⟩
    rintro rfl
    rw [hget] at hj
    obtain ⟨rfl, hid⟩ := Prod.mk.inj (Option.some.inj hj)
    exact hfree c hc hid.symm
  | @table n M hstep howned =>
    refine ⟨h.distinct, fun m c hc => ?_, fun m => ?_⟩
    · rw [table_put] at hc
      split_ifs at hc with hm
      · rw [hm]
        exact howned c hc
      · exact h.owned m c hc
    · rw [table_put]
      split_ifs with hm
      · exact (h.compatible n).step hsymm hirr hstep
      · exact h.compatible m

/-- The handles of an object. -/
def handlesOf (s : LockService κ η ρ) (n : κ) : List η :=
  (s.handles.filter fun p => p.1 = n).map Prod.snd

theorem Ok.nodup_handlesOf (h : Ok owner conflict s) (n : κ) : (s.handlesOf n).Nodup := by
  refine (List.nodup_map_iff_inj_on (h.distinct.filter _)).mpr fun p hp q hq hpq => ?_
  have hp1 : p.1 = n := of_decide_eq_true (List.mem_filter.mp hp).2
  have hq1 : q.1 = n := of_decide_eq_true (List.mem_filter.mp hq).2
  exact Prod.ext (hp1.trans hq1.symm) hpq

/-- **What is held of an object is what its handles hold**, each its own. -/
theorem Ok.card_table [DecidableEq η] (h : Ok owner conflict s) (n : κ) : (s.table n).card =
    ((s.handlesOf n).map fun id => (s.table n).countP fun c => owner c = id).sum := by
  have hall : ∀ id ∈ (s.table n).map owner, id ∈ (s.handlesOf n).toFinset := by
    intro id hid
    obtain ⟨c, hc, rfl⟩ := Multiset.mem_map.mp hid
    refine List.mem_toFinset.mpr (List.mem_map.mpr ⟨(n, owner c), ?_, rfl⟩)
    exact List.mem_filter.mpr ⟨h.owned n c hc, decide_eq_true rfl⟩
  calc (s.table n).card = ((s.table n).map owner).card := (Multiset.card_map _ _).symm
    _ = ∑ id ∈ (s.handlesOf n).toFinset, ((s.table n).map owner).count id :=
      (Multiset.sum_count_eq_card hall).symm
    _ = ((s.handlesOf n).map fun id => ((s.table n).map owner).count id).sum :=
      List.sum_toFinset _ (h.nodup_handlesOf n)
    _ = _ := by
      refine congrArg List.sum (List.map_congr_left fun id _ => ?_)
      rw [Multiset.count_map, Multiset.countP_eq_card_filter]
      refine congrArg Multiset.card (Multiset.filter_congr fun c _ => ?_)
      exact eq_comm

/-- **Every service is in order**. -/
theorem Ok.run (hsymm : ∀ a b, conflict a b → conflict b a) (hirr : ∀ a, ¬ conflict a a)
    (h : Ok owner conflict s) (hs : Relation.ReflTransGen (Step owner conflict) s s') :
    Ok owner conflict s' := by
  induction hs with
  | refl => exact h
  | tail _ hstep ih => exact ih.step hsymm hirr hstep

end LockService

end Lib
