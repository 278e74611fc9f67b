import Mathlib.Data.List.Basic

/-!
# Stamping what enters a list

A list that only grows at its head, and loses elements anywhere. `restamp` keeps beside it when each
element came: a new head gets the stamp of now, and what is left keeps its own.
-/

set_option autoImplicit false

namespace Lib

variable {κ τ : Type*} [DecidableEq τ]

/-- The stamps of `l`, which is left of what `H` stamps. -/
def keepStamps : List (κ × τ) → List τ → List (κ × τ)
  | _, [] => []
  | [], _ :: _ => []
  | e :: H, a :: l => if e.2 = a then e :: keepStamps H l else keepStamps H (a :: l)

/-- The stamps of the list after a step, from those before it. -/
def restamp (now : κ) (H : List (κ × τ)) : List τ → List (κ × τ)
  | [] => []
  | a :: l => if l = H.map Prod.snd then (now, a) :: H else keepStamps H (a :: l)

variable {now : κ} {H : List (κ × τ)} {l : List τ} {a : τ}

theorem keepStamps_sublist (H : List (κ × τ)) (l : List τ) : (keepStamps H l).Sublist H := by
  induction H generalizing l with
  | nil => cases l <;> exact List.Sublist.refl _
  | cons e H ih =>
    cases l with
    | nil => exact List.nil_sublist _
    | cons a l =>
      rw [keepStamps]
      split
      · exact (ih l).cons_cons e
      · exact (ih (a :: l)).cons e

theorem map_keepStamps (h : l.Sublist (H.map Prod.snd)) : (keepStamps H l).map Prod.snd = l := by
  induction H generalizing l with
  | nil =>
    rw [List.sublist_nil.mp h]
    rfl
  | cons e H ih =>
    cases l with
    | nil => rfl
    | cons a l =>
      rw [keepStamps]
      split
      · rename_i hea
        rw [List.map_cons, hea, ih]
        exact List.Sublist.of_cons_cons h
      · rename_i hea
        apply ih
        cases h with
        | cons _ h => exact h
        | cons_cons _ h => exact absurd rfl hea

theorem restamp_cons (now : κ) (H : List (κ × τ)) (a : τ) :
    restamp now H (a :: H.map Prod.snd) = (now, a) :: H := if_pos rfl

/-- **What is left keeps its stamps.** -/
theorem restamp_sublist (h : l.Sublist (H.map Prod.snd)) :
    (restamp now H l).Sublist H ∧ (restamp now H l).map Prod.snd = l := by
  cases l with
  | nil => exact ⟨List.nil_sublist _, rfl⟩
  | cons a l =>
    have hne : l ≠ H.map Prod.snd := by
      rintro rfl
      exact absurd h.length_le (by simp)
    rw [restamp, if_neg hne]
    exact ⟨keepStamps_sublist _ _, map_keepStamps h⟩

end Lib
