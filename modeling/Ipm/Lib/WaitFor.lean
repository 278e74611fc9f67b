import Mathlib.Data.Set.Finite.Basic
import Mathlib.Data.Fintype.Card
import Mathlib.Logic.Relation
import Mathlib.Order.WellFounded

/-!
# Waiting in a circle

When everybody in a finite set waits for somebody in it, some of them wait for each other in a
circle: following the waits from one to the next comes back.
-/

set_option autoImplicit false

namespace Lib

variable {α : Type*} {waits : α → α → Prop} {S : Set α}

/-- **A finite set without a way out has a circle in it.** -/
theorem exists_circle (hfin : S.Finite) (hne : S.Nonempty)
    (hout : ∀ a ∈ S, ∃ c ∈ S, waits a c) : ∃ a ∈ S, Relation.TransGen waits a a := by
  by_contra hnone
  have hirr : ∀ a ∈ S, ¬ Relation.TransGen waits a a := fun a ha h => hnone ⟨a, ha, h⟩
  -- without one, following the waits descends, and somebody waits for nobody
  let below : S → S → Prop := fun c a => Relation.TransGen waits a.1 c.1
  have : Finite S := hfin
  have : IsTrans S below := ⟨fun _ _ _ hcb hba => hba.trans hcb⟩
  have : Std.Irrefl below := ⟨fun a => hirr a.1 a.2⟩
  obtain ⟨a₀, ha₀⟩ := hne
  obtain ⟨a, -, hmin⟩ := (Finite.wellFounded_of_trans_of_irrefl below).has_min Set.univ
    ⟨⟨a₀, ha₀⟩, trivial⟩
  obtain ⟨c, hc, hac⟩ := hout a.1 a.2
  exact hmin ⟨c, hc⟩ trivial (Relation.TransGen.single hac)

end Lib
