import Mathlib.Algebra.GroupWithZero.Nat
import Mathlib.Data.List.Perm.Basic

/-!
# Threads in a list

The concurrent systems of this development keep one entry per thread in a list, and a step of thread
`i` replaces entry `i`. These are the facts their invariants need about that: what holds of every
thread is checked for the one that moved, and a count of threads changes by the difference between
the entry before and the entry after.
-/

set_option autoImplicit false

namespace Lib

variable {α : Type*} {l : List α} {i : Nat} {t t' : α}

/-- What holds of every thread, and of the one that moved, holds of every thread after the step. -/
theorem forall_mem_set {P Q : α → Prop} (h : ∀ x ∈ l, P x) (hPQ : ∀ x ∈ l, P x → Q x) (ht : Q t') :
    ∀ x ∈ l.set i t', Q x := by
  intro x hx
  rcases List.mem_or_eq_of_mem_set hx with hmem | rfl
  · exact hPQ x hmem (h x hmem)
  · exact ht

/-- Every thread but the moving one is still there. -/
theorem mem_set_or {x : α} (hx : x ∈ l.set i t') : x = t' ∨ ∃ j, j ≠ i ∧ l[j]? = some x := by
  obtain ⟨j, hj⟩ := List.mem_iff_getElem?.mp hx
  rw [List.getElem?_set] at hj
  split at hj
  · split at hj
    · exact .inl (Option.some.inj hj).symm
    · cases hj
  · exact .inr ⟨j, fun he => absurd he.symm ‹_›, hj⟩

theorem mem_set_self (h : l[i]? = some t) (t' : α) : t' ∈ l.set i t' := by
  obtain ⟨hi, -⟩ := List.getElem?_eq_some_iff.mp h
  exact List.mem_set hi t'

theorem mem_set_of_ne {j : Nat} {x : α} (h : l[j]? = some x) (hj : j ≠ i) (t' : α) :
    x ∈ l.set i t' := by
  refine List.mem_of_getElem? (i := j) ?_
  rw [List.getElem?_set_ne (Ne.symm hj)]
  exact h

/-- A count of threads after a step, without subtraction. -/
theorem countP_set_add (q : α → Bool) (h : l[i]? = some t) (t' : α) :
    (l.set i t').countP q + (if q t then 1 else 0) = l.countP q + (if q t' then 1 else 0) := by
  induction l generalizing i with
  | nil => cases h
  | cons x xs ih =>
    cases i with
    | zero =>
      obtain rfl : x = t := Option.some.inj h
      simp only [List.set_cons_zero, List.countP_cons]
      omega
    | succ i =>
      have hrest := ih (i := i) h
      simp only [List.set_cons_succ, List.countP_cons]
      omega

/-- A sum over threads after a step, without subtraction. -/
theorem sum_map_set_add (f : α → Nat) (h : l[i]? = some t) (t' : α) :
    ((l.set i t').map f).sum + f t = (l.map f).sum + f t' := by
  induction l generalizing i with
  | nil => cases h
  | cons x xs ih =>
    cases i with
    | zero =>
      obtain rfl : x = t := Option.some.inj h
      simp only [List.set_cons_zero, List.map_cons, List.sum_cons]
      omega
    | succ i =>
      have hrest := ih (i := i) h
      simp only [List.set_cons_succ, List.map_cons, List.sum_cons]
      omega

/-- A count after one entry is taken out. -/
theorem countP_eraseIdx_add (q : α → Bool) (h : l[i]? = some t) :
    (l.eraseIdx i).countP q + (if q t then 1 else 0) = l.countP q := by
  obtain ⟨hi, rfl⟩ := List.getElem?_eq_some_iff.mp h
  rw [← List.countP_cons]
  exact (List.getElem_cons_eraseIdx_perm hi).countP_eq q

/-- Thread `j` after thread `i` has moved. -/
theorem getElem?_set_cases {j : Nat} {x : α} (h : (l.set i t')[j]? = some x) :
    j = i ∧ x = t' ∨ j ≠ i ∧ l[j]? = some x := by
  rw [List.getElem?_set] at h
  split at h
  · rename_i hij
    split at h
    · exact .inl ⟨hij.symm, (Option.some.inj h).symm⟩
    · cases h
  · rename_i hij
    exact .inr ⟨Ne.symm hij, h⟩

/-- Thread `j` after a new one has come. -/
theorem getElem?_concat_cases {j : Nat} {x : α} (h : (l ++ [t])[j]? = some x) :
    l[j]? = some x ∨ j = l.length ∧ x = t := by
  rcases Nat.lt_trichotomy j l.length with hlt | rfl | hgt
  · rw [List.getElem?_append_left hlt] at h
    exact .inl h
  · rw [List.getElem?_concat_length] at h
    exact .inr ⟨rfl, (Option.some.inj h).symm⟩
  · rw [List.getElem?_eq_none (by simpa using Nat.succ_le_of_lt hgt)] at h
    cases h

theorem set_getElem?_self (h : l[i]? = some t) : l.set i t = l := by
  obtain ⟨hi, rfl⟩ := List.getElem?_eq_some_iff.mp h
  exact List.set_getElem_self hi

section Pairwise

variable {R : α → α → Prop}

/-- Two threads that are not one are related. -/
theorem pairwise_of_ne {j : Nat} {x y : α} (h : l.Pairwise R) (hsymm : ∀ x y, R x y → R y x)
    (hi : l[i]? = some x) (hj : l[j]? = some y) (hij : i ≠ j) : R x y := by
  obtain ⟨hilt, rfl⟩ := List.getElem?_eq_some_iff.mp hi
  obtain ⟨hjlt, rfl⟩ := List.getElem?_eq_some_iff.mp hj
  rcases Nat.lt_or_gt_of_ne hij with hlt | hgt
  · exact List.pairwise_iff_getElem.mp h i j hilt hjlt hlt
  · exact hsymm _ _ (List.pairwise_iff_getElem.mp h j i hjlt hilt hgt)

/-- A step after which a thread is related to all it was related to. -/
theorem pairwise_set (h : l.Pairwise R) (hget : l[i]? = some t) (hleft : ∀ x, R t x → R t' x)
    (hright : ∀ x, R x t → R x t') : (l.set i t').Pairwise R := by
  induction l generalizing i with
  | nil => exact h
  | cons x xs ih =>
    obtain ⟨hx, hxs⟩ := List.pairwise_cons.mp h
    cases i with
    | zero =>
      obtain rfl : x = t := Option.some.inj hget
      exact List.pairwise_cons.mpr ⟨fun y hy => hleft y (hx y hy), hxs⟩
    | succ i =>
      refine List.pairwise_cons.mpr ⟨?_, ih hxs hget⟩
      exact forall_mem_set hx (fun _ _ hy => hy) (hright x (hx t (List.mem_of_getElem? hget)))

end Pairwise

section FilterMap

variable {β : Type*} {f : α → Option β} {c : β}

/-- What threads have, after a step of one that keeps what it has. -/
theorem filterMap_set_of_eq (h : l[i]? = some t) (hf : f t' = f t) :
    (l.set i t').filterMap f = l.filterMap f := by
  induction l generalizing i with
  | nil => cases h
  | cons x xs ih =>
    cases i with
    | zero =>
      obtain rfl : x = t := Option.some.inj h
      rw [List.set_cons_zero, List.filterMap_cons, List.filterMap_cons, hf]
    | succ i =>
      rw [List.set_cons_succ, List.filterMap_cons, List.filterMap_cons, ih h]

/-- What threads have, after a step of one that gets something. -/
theorem filterMap_set_perm (h : l[i]? = some t) (hnone : f t = none) (hsome : f t' = some c) :
    ((l.set i t').filterMap f).Perm (c :: l.filterMap f) := by
  induction l generalizing i with
  | nil => cases h
  | cons x xs ih =>
    cases i with
    | zero =>
      obtain rfl : x = t := Option.some.inj h
      rw [List.set_cons_zero, List.filterMap_cons, List.filterMap_cons, hnone, hsome]
    | succ i =>
      rw [List.set_cons_succ, List.filterMap_cons, List.filterMap_cons]
      cases f x with
      | none => exact ih h
      | some y => exact ((ih h).cons y).trans (List.Perm.swap _ _ _)

/-- ... and after a step of one that gives it back. -/
theorem perm_filterMap_of_set (h : l[i]? = some t) (hsome : f t = some c) (hnone : f t' = none) :
    (l.filterMap f).Perm (c :: (l.set i t').filterMap f) := by
  have hlt : i < l.length := (List.getElem?_eq_some_iff.mp h).1
  have hget : (l.set i t')[i]? = some t' := by simp [hlt]
  have hback := filterMap_set_perm hget hnone hsome
  rw [List.set_set, set_getElem?_self h] at hback
  exact hback

/-- Two threads that have the same are one. -/
theorem eq_of_nodup_filterMap {j : Nat} {x y : α} (h : (l.filterMap f).Nodup) (hi : l[i]? = some x)
    (hj : l[j]? = some y) (hx : f x = some c) (hy : f y = some c) : i = j := by
  obtain ⟨hilt, rfl⟩ := List.getElem?_eq_some_iff.mp hi
  obtain ⟨hjlt, rfl⟩ := List.getElem?_eq_some_iff.mp hj
  have hpair := List.pairwise_filterMap.mp h
  rcases Nat.lt_trichotomy i j with hlt | heq | hgt
  · exact absurd rfl (List.pairwise_iff_getElem.mp hpair i j hilt hjlt hlt c hx c hy)
  · exact heq
  · exact absurd rfl (List.pairwise_iff_getElem.mp hpair j i hjlt hilt hgt c hy c hx)

end FilterMap

end Lib
