import Mathlib.Data.List.Sort
import Ipm.Lib.Slots

/-!
# Insertion into a sorted array

`List.orderedInsert lt a l`, for a *strict* order, puts `a` in front of the first element it is less
than: behind everything that ties with it. The search loop finds that place in an array, and the
result is sorted again.
-/

set_option autoImplicit false

namespace Lib

variable {α : Type*} {lt : α → α → Prop} [DecidableRel lt] {a : α}

/-- The place of an insertion, given as a cut of the list. -/
theorem orderedInsert_append {l₁ l₂ : List α} (h₁ : ∀ x ∈ l₁, ¬ lt a x)
    (h₂ : ∀ x ∈ l₂.head?, lt a x) : (l₁ ++ l₂).orderedInsert lt a = l₁ ++ a :: l₂ := by
  induction l₁ with
  | nil =>
    cases l₂ with
    | nil => rfl
    | cons y l₂ => simp [h₂ y rfl]
  | cons x l₁ ih =>
    have hx : ¬ lt a x := h₁ x List.mem_cons_self
    rw [List.cons_append, List.orderedInsert_cons, if_neg hx,
      ih fun y hy => h₁ y (List.mem_cons_of_mem x hy)]
    rfl

/-- The search loop stops where the element belongs. -/
theorem orderedInsert_window (f : Nat → α) {n p : Nat}
    (hp : scan (fun x => decide (lt a x)) f 0 n = p) :
    (window f n).orderedInsert lt a = window f p ++ a :: window (fun i => f (p + i)) (n - p) := by
  have hle : p ≤ n := by
    have := scan_le (fun x => decide (lt a x)) f 0 n
    omega
  have hcut : window f n = window f p ++ window (fun i => f (p + i)) (n - p) := by
    rw [← window_add, Nat.add_sub_cancel' hle]
  rw [hcut]
  apply orderedInsert_append
  · intro x hx
    obtain ⟨i, hi, rfl⟩ := mem_window.mp hx
    have hbefore := scan_before (Nat.zero_le i) (hp.symm ▸ hi)
    exact of_decide_eq_false hbefore
  · intro x hx
    cases hn : n - p with
    | zero =>
      rw [hn] at hx
      cases hx
    | succ k =>
      rw [hn, window_succ'] at hx
      cases hx
      have hlt : scan (fun x => decide (lt a x)) f 0 n < 0 + n := by omega
      have hhit := scan_hit hlt
      rw [hp] at hhit
      exact of_decide_eq_true hhit

/-- **The result is sorted.** -/
theorem pairwise_orderedInsert (htrans : ∀ x y z, lt x y → lt y z → lt x z)
    (hirr : ∀ x, ¬ lt x x) {l : List α} (h : l.Pairwise fun x y => ¬ lt y x) :
    (l.orderedInsert lt a).Pairwise fun x y => ¬ lt y x := by
  induction l with
  | nil => simp
  | cons x l ih =>
    obtain ⟨hx, hl⟩ := List.pairwise_cons.mp h
    rw [List.orderedInsert_cons]
    split
    · rename_i hax
      refine List.pairwise_cons.mpr ⟨?_, h⟩
      intro y hy hya
      rcases List.mem_cons.mp hy with rfl | hy
      · exact hirr a (htrans a y a hax hya)
      · exact hx y hy (htrans y a x hya hax)
    · rename_i hax
      refine List.pairwise_cons.mpr ⟨?_, ih hl⟩
      intro y hy
      rcases List.mem_cons.mp ((List.perm_orderedInsert lt a l).mem_iff.mp hy) with rfl | hy
      · exact hax
      · exact hx y hy

end Lib
