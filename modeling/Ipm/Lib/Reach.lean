import Mathlib.Data.List.Basic

/-!
# Guarded reachability

Every system in this development is a partial step function `step : σ → ι → Option σ`: a label
names who moves and what the environment answered, and `none` says the label is not enabled. The
nondeterminism of an interleaving lives in the choice of labels and nowhere else, so a run is a
list of labels and can be evaluated.

`Reach step G s₀` is the set of states some run reaches from `s₀` when each of its steps meets the
guard `G` *in the state it is taken from*. The guard is what lets one system carry both readings
of a safety property: with the callers' contract as guard it is "every reachable state", and with
a sharper guard it is "every state reached by runs that keep clear of this branch".
-/

set_option autoImplicit false

namespace Lib

variable {σ ι : Type*}

/-- The states reached from `s₀` by steps that all meet `G`. -/
inductive Reach (step : σ → ι → Option σ) (G : σ → ι → Prop) (s₀ : σ) : σ → Prop
  | init : Reach step G s₀ s₀
  | next {s s' : σ} {a : ι} (h : Reach step G s₀ s) (hg : G s a) (hs : step s a = some s') :
      Reach step G s₀ s'

variable {step : σ → ι → Option σ} {G H : σ → ι → Prop} {s₀ s s' : σ}

/-- **The invariant rule**: what holds initially and is kept by every guarded step holds in every
state reached. -/
theorem Reach.invariant {I : σ → Prop} (h : Reach step G s₀ s) (h0 : I s₀)
    (hstep : ∀ s a s', I s → G s a → step s a = some s' → I s') : I s := by
  induction h with
  | init => exact h0
  | next _ hg hs ih => exact hstep _ _ _ ih hg hs

/-- A run of a stronger guard is a run of a weaker one. -/
theorem Reach.mono (hGH : ∀ s a, G s a → H s a) (h : Reach step G s₀ s) : Reach step H s₀ s := by
  induction h with
  | init => exact .init
  | next _ hg hs ih => exact .next ih (hGH _ _ hg) hs

theorem Reach.trans (h : Reach step G s₀ s) (h' : Reach step G s s') : Reach step G s₀ s' := by
  induction h' with
  | init => exact h
  | next _ hg hs ih => exact .next ih hg hs

/-- **The simulation rule**: when every guarded step of one system is answered by guarded steps of
another, as many as it takes, a run of the first is answered by a run of the second. -/
theorem Reach.simulation {τ κ : Type*} {step' : τ → κ → Option τ} {G' : τ → κ → Prop} {t₀ : τ}
    {R : σ → τ → Prop} (h : Reach step G s₀ s) (h0 : R s₀ t₀)
    (hstep : ∀ s a s' t, R s t → G s a → step s a = some s' →
      ∃ t', Reach step' G' t t' ∧ R s' t') : ∃ t, Reach step' G' t₀ t ∧ R s t := by
  induction h with
  | init => exact ⟨t₀, .init, h0⟩
  | next _ hg hs ih =>
    obtain ⟨t, hrun, hR⟩ := ih
    obtain ⟨t', hrun', hR'⟩ := hstep _ _ _ t hR hg hs
    exact ⟨t', hrun.trans hrun', hR'⟩

/-- **The agreement rule**: two systems that take the same guarded steps, where an invariant of one of
them holds, reach the same states. -/
theorem Reach.congr {step' : σ → ι → Option σ} {I : σ → Prop} (h0 : I s₀)
    (hkeep : ∀ s a s', I s → G s a → step s a = some s' → I s')
    (heq : ∀ s a, I s → G s a → step' s a = step s a) :
    Reach step G s₀ s ↔ Reach step' G s₀ s := by
  constructor
  · intro h
    induction h with
    | init => exact .init
    | next h hg hs ih =>
      have hI := h.invariant h0 hkeep
      exact .next ih hg ((heq _ _ hI hg).trans hs)
  · intro h
    induction h with
    | init => exact .init
    | next h hg hs ih =>
      have hI := ih.invariant h0 hkeep
      exact .next ih hg ((heq _ _ hI hg).symm.trans hs)

/-! ## Evaluating a run

A concrete interleaving is a list of labels. `runGuarded` executes it with a decidable guard, so
that a trace is checked by evaluation rather than by one constructor per step. -/

/-- Run the labels in order; `none` if one is not enabled or does not pass the guard `g`. -/
def runGuarded (step : σ → ι → Option σ) (g : σ → ι → Bool) : σ → List ι → Option σ
  | s, [] => some s
  | s, a :: as => if g s a then (step s a).bind fun s' => runGuarded step g s' as else none

theorem Reach.of_runGuarded {g : σ → ι → Bool} (hg : ∀ s a, g s a = true → G s a) :
    ∀ {acts : List ι} {s₀ s : σ}, runGuarded step g s₀ acts = some s → Reach step G s₀ s := by
  intro acts
  induction acts with
  | nil =>
    intro s₀ s h
    simp only [runGuarded, Option.some.injEq] at h
    exact h ▸ .init
  | cons a as ih =>
    intro s₀ s h
    simp only [runGuarded] at h
    split at h
    · rename_i hga
      obtain ⟨s₁, hs₁, hrest⟩ := Option.bind_eq_some_iff.mp h
      exact (Reach.next .init (hg _ _ hga) hs₁).trans (ih hrest)
    · cases h

/-- A trace whose last state passes the test `t` exhibits a reached state with property `P`. -/
theorem exists_reach_of_trace {g : σ → ι → Bool} {t : σ → Bool} {P : σ → Prop} (acts : List ι)
    (hg : ∀ s a, g s a = true → G s a) (ht : ∀ s, t s = true → P s)
    (hrun : (runGuarded step g s₀ acts).any t = true) : ∃ s, Reach step G s₀ s ∧ P s := by
  cases hr : runGuarded step g s₀ acts with
  | none => rw [hr] at hrun; cases hrun
  | some s =>
    rw [hr] at hrun
    exact ⟨s, .of_runGuarded hg hr, ht s (by simpa using hrun)⟩

end Lib
