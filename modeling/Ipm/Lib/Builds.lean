import Ipm.Lib.Prog

/-!
# One body, two builds

`NDEBUG` takes the assertions out. As long as none of them fails this makes no difference: a body that is
put together from assertions and from what does not look at the build at all comes to the same with them
and without, unless one of them stops it. That is `Released`, and every way to put bodies together keeps
it.
-/

set_option autoImplicit false

namespace Lib

variable {σ τ ε α β : Type}

/-- What `debug` comes to is what `release` does, unless an assertion has stopped it. -/
def Outcome.Released (debug release : Outcome σ α) : Prop :=
  debug.stopped? = some .assertion ∨ debug = release

namespace Outcome.Released

variable {o o' : Outcome σ α} {k k' : α → σ → Outcome σ β}

theorem refl (o : Outcome σ α) : o.Released o := .inr rfl

theorem eq (h : o.Released o') (hquiet : o.stopped? ≠ some .assertion) : o' = o :=
  (h.resolve_left hquiet).symm

theorem check (p : Bool) (s : σ) (h : o.Released o') :
    (Build.check ⟨false⟩ p s o).Released (Build.check ⟨true⟩ p s o') := by
  cases p with
  | true =>
    rw [Build.check_true, Build.check_true]
    exact h
  | false => exact .inl rfl

theorem andThen (h : o.Released o') (hk : ∀ a s, (k a s).Released (k' a s)) :
    (o.andThen k).Released (o'.andThen k') := by
  rcases h with hstop | rfl
  · cases o with
    | ret a s => cases hstop
    | stop why s => exact .inl hstop
  · cases o with
    | ret a s => exact hk a s
    | stop why s => exact .refl _

theorem within (h : o.Released o') (put : σ → τ) : (o.within put).Released (o'.within put) := by
  rcases h with hstop | rfl
  · cases o with
    | ret a s => cases hstop
    | stop why s => exact .inl hstop
  · exact .refl _

theorem ite {p : Prop} [Decidable p] {t t' e e' : Outcome σ α} (ht : t.Released t')
    (he : e.Released e') : (if p then t else e).Released (if p then t' else e') := by
  split
  · exact ht
  · exact he

end Outcome.Released

/-- A body that has come to `r`. -/
def Prog.done (r : Except ε α) : Prog σ ε α := fun s => .ret r s

/-- A body under the two builds. -/
def Prog.Released (p : Build → Prog σ ε α) : Prop := ∀ s, (p ⟨false⟩ s).Released (p ⟨true⟩ s)

namespace Prog.Released

variable {p : Build → Prog σ ε α} {c : Build → Prog σ ε Unit}

theorem eq {s : σ} (h : Prog.Released p) (hquiet : (p ⟨false⟩ s).stopped? ≠ some .assertion) :
    p ⟨true⟩ s = p ⟨false⟩ s := Outcome.Released.eq (h s) hquiet

theorem const (p : Prog σ ε α) : Prog.Released fun _ => p := fun _ => .refl _

theorem assert (q : Bool) : Prog.Released fun b => (Prog.assert b q : Prog σ ε Unit) :=
  fun s => .check q s (.refl _)

theorem ite {q : Prop} [Decidable q] {t e : Build → Prog σ ε α} (ht : Prog.Released t)
    (he : Prog.Released e) : Prog.Released fun b => if q then t b else e b := by
  split
  · exact ht
  · exact he

theorem bind {k : Build → α → Prog σ ε β} (hp : Prog.Released p)
    (hk : ∀ a, Prog.Released fun b => k b a) : Prog.Released fun b => p b >>= k b := by
  intro s
  have heq : ∀ b : Build, (p b >>= k b) s = (p b s).andThen fun r => Prog.done r >>= k b := by
    intro b
    rw [bind_apply]
    rcases p b s with ⟨_ | _, _⟩ | _ <;> rfl
  show Outcome.Released ((p _ >>= k _) s) ((p _ >>= k _) s)
  rw [heq, heq]
  refine (hp s).andThen fun r t => ?_
  cases r with
  | ok a => exact hk a t
  | error e => exact .refl _

theorem ignore (hp : Prog.Released p) : Prog.Released fun b => (p b).ignore := by
  intro s
  have heq : ∀ b : Build, (p b).ignore s = (p b s).andThen fun _ t => .ret (.ok ()) t := by
    intro b
    unfold Prog.ignore
    cases p b s <;> rfl
  show Outcome.Released ((p _).ignore s) ((p _).ignore s)
  rw [heq, heq]
  exact (hp s).andThen fun _ _ => .refl _

theorem onError (hp : Prog.Released p) (hc : Prog.Released c) :
    Prog.Released fun b => (p b).onError (c b) := by
  intro s
  have heq : ∀ b : Build, (p b).onError (c b) s =
      (p b s).andThen fun r => (Prog.done r).onError (c b) := by
    intro b
    unfold Prog.onError
    rcases p b s with ⟨_ | _, _⟩ | _ <;> rfl
  have herror : ∀ (b : Build) (e : ε) (t : σ), (Prog.done (.error e)).onError (c b) t =
      (c b t).andThen fun _ u => (.ret (.error e) u : Outcome σ (Except ε α)) := by
    intro b e t
    unfold Prog.onError
    dsimp only [Prog.done]
    cases c b t <;> rfl
  show Outcome.Released ((p _).onError (c _) s) ((p _).onError (c _) s)
  rw [heq, heq]
  refine (hp s).andThen fun r t => ?_
  cases r with
  | ok a => exact .refl _
  | error e =>
    rw [herror, herror]
    exact (hc t).andThen fun _ _ => .refl _

end Prog.Released

end Lib
