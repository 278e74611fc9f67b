import Mathlib.Data.List.Nodup
import Mathlib.Data.List.Pairwise
import Mathlib.Tactic.ByContra

/-!
# `switch`

A `switch` in which every case returns. It may be read as a partition of the values it looks at: two
of them are answered alike exactly when they stand under the same case, because no label stands twice
and no two cases (the default is one of them) return the same.
-/

set_option autoImplicit false

namespace Lib

/-- The labels of every case with what it returns, and the default. -/
structure Switch (ε ρ : Type) where
  cases : List (List ε × ρ)
  default : ρ
  labels_nodup : (cases.flatMap Prod.fst).Nodup
  answers_nodup : (default :: cases.map Prod.snd).Nodup

namespace Switch

variable {ε ρ : Type} (s : Switch ε ρ)

/-- The two stand under the same case. -/
def SameCase (x y : ε) : Prop := ∀ c ∈ s.cases, x ∈ c.1 ↔ y ∈ c.1

instance [DecidableEq ε] (x y : ε) : Decidable (s.SameCase x y) :=
  inferInstanceAs (Decidable (∀ _ ∈ _, _))

@[simp] theorem sameCase_refl (x : ε) : s.SameCase x x := fun _ _ => Iff.rfl

variable {s} {c : List ε × ρ} {e x y : ε}

/-- A label stands under one case. -/
theorem eq_of_mem_labels {c' : List ε × ρ} (hc : c ∈ s.cases) (hc' : c' ∈ s.cases) (he : e ∈ c.1)
    (he' : e ∈ c'.1) : c = c' := by
  have hsymm : Std.Symm (Function.onFun (α := List ε × ρ) List.Disjoint Prod.fst) :=
    ⟨fun _ _ h _ hx hy => h hy hx⟩
  by_contra hne
  have hapart := (List.nodup_flatMap.mp s.labels_nodup).2.forall hc hc' hne
  exact hapart he he'

variable [DecidableEq ε]

/-- Where `switch (e)` goes. -/
def answer (s : Switch ε ρ) (e : ε) : ρ :=
  ((s.cases.find? fun c => e ∈ c.1).map Prod.snd).getD s.default

theorem answer_cases (s : Switch ε ρ) (e : ε) :
    (∃ c ∈ s.cases, e ∈ c.1 ∧ s.answer e = c.2) ∨
      (∀ c ∈ s.cases, e ∉ c.1) ∧ s.answer e = s.default := by
  unfold answer
  cases h : s.cases.find? fun c => e ∈ c.1 with
  | none => exact .inr ⟨by simpa using h, rfl⟩
  | some c => exact .inl ⟨c, List.mem_of_find?_eq_some h, by simpa using List.find?_some h, rfl⟩

/-- What is returned tells the case. -/
theorem mem_labels_iff (hc : c ∈ s.cases) : e ∈ c.1 ↔ s.answer e = c.2 := by
  obtain ⟨hdefault, hnodup⟩ := List.nodup_cons.mp s.answers_nodup
  rcases s.answer_cases e with ⟨c', hc', hmem, hans⟩ | ⟨hnone, hans⟩
  · constructor
    · intro he
      rw [hans, eq_of_mem_labels hc hc' he hmem]
    · intro h
      rw [List.inj_on_of_nodup_map hnodup hc hc' (h.symm.trans hans)]
      exact hmem
  · constructor
    · intro he
      exact absurd he (hnone c hc)
    · intro h
      have hmem : s.default ∈ s.cases.map Prod.snd := by
        rw [← hans, h]
        exact List.mem_map_of_mem hc
      exact absurd hmem hdefault

/-- **The answers are the cases.** -/
theorem answer_eq_iff : s.answer x = s.answer y ↔ s.SameCase x y := by
  constructor
  · intro h c hc
    rw [mem_labels_iff hc, mem_labels_iff hc, h]
  · intro h
    rcases s.answer_cases x with ⟨c, hc, hmem, hans⟩ | ⟨hnone, hans⟩
    · rw [hans, (mem_labels_iff hc).mp ((h c hc).mp hmem)]
    · rcases s.answer_cases y with ⟨c, hc, hmem, -⟩ | ⟨-, hans'⟩
      · exact absurd ((h c hc).mpr hmem) (hnone c hc)
      · rw [hans, hans']

end Switch

end Lib
