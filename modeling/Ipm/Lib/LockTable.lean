import Mathlib.Data.Multiset.Basic
import Mathlib.Data.Multiset.AddSub

/-!
# A table of held locks

The abstract picture of a region lock, over any type of claims and any conflict relation: the
table is a multiset, a claim enters it only if it conflicts with nothing there, and anything may
leave. That the claims in the table are then pairwise compatible is the whole of mutual exclusion;
how the table is stored is a matter of refinement.
-/

set_option autoImplicit false

namespace Lib

variable {α : Type*} {conflict : α → α → Prop} {M N : Multiset α}

inductive TableStep (conflict : α → α → Prop) : Multiset α → Multiset α → Prop
  | grant {M : Multiset α} (c : α) (free : ∀ e ∈ M, ¬ conflict c e) :
      TableStep conflict M (c ::ₘ M)
  | shrink {M N : Multiset α} (h : N ≤ M) : TableStep conflict M N

theorem TableStep.refl (M : Multiset α) : TableStep conflict M M := .shrink le_rfl

/-- No two claims in the table conflict. -/
def Compatible (conflict : α → α → Prop) (M : Multiset α) : Prop :=
  ∀ a ∈ M, ∀ b ∈ M, ¬ conflict a b

theorem compatible_zero : Compatible conflict 0 := fun a ha => absurd ha (Multiset.notMem_zero a)

/-- **Compatibility is kept**, for a conflict relation that is symmetric and irreflexive. -/
theorem Compatible.step (hsymm : ∀ a b, conflict a b → conflict b a) (hirr : ∀ a, ¬ conflict a a)
    (hM : Compatible conflict M) (hs : TableStep conflict M N) : Compatible conflict N := by
  cases hs with
  | grant c free =>
    intro a ha b hb
    rcases Multiset.mem_cons.mp ha with rfl | haM
    · rcases Multiset.mem_cons.mp hb with rfl | hbM
      · exact hirr _
      · exact free b hbM
    · rcases Multiset.mem_cons.mp hb with rfl | hbM
      · exact fun h => free a haM (hsymm a b h)
      · exact hM a haM b hbM
  | shrink h =>
    intro a ha b hb
    exact hM a (Multiset.mem_of_le h ha) b (Multiset.mem_of_le h hb)

end Lib
