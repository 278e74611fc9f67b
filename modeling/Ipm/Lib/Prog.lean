import Ipm.Lib.Outcome

/-!
# Function bodies and their postconditions

A C function that reports failure through an error code is a program that may bail out: `Prog σ ε α`
runs on shared state `σ` and returns an `α`, bails out with an `ε`, or is stopped. Bailing out keeps
the state, as a C `return` does; what has to be undone is undone by the code.

`Post p s Q E S` says how `p` run from `s` can end: returned with `Q`, bailed out with `E`, stopped
with `S`. One such statement per function, chained by `Post.bind`, is how the composite functions
are specified without unfolding the ones they call.
-/

set_option autoImplicit false

namespace Lib

/-- A function body over shared state `σ` with error codes `ε`. -/
def Prog (σ ε α : Type) : Type := σ → Outcome σ (Except ε α)

namespace Prog

variable {σ ε α β : Type}

/-- Sequencing: the rest runs only after a normal return. -/
def seq (p : Prog σ ε α) (k : α → Prog σ ε β) : Prog σ ε β := fun s =>
  match p s with
  | .ret (.ok a) t => k a t
  | .ret (.error e) t => .ret (.error e) t
  | .stop w t => .stop w t

instance : Monad (Prog σ ε) where
  pure a := fun s => .ret (.ok a) s
  bind := seq

/-- `return e` for an error code. -/
def fail (e : ε) : Prog σ ε α := fun s => .ret (.error e) s

/-- The process is stopped here. -/
def halt (w : Stop) : Prog σ ε α := fun s => .stop w s

def read (f : σ → α) : Prog σ ε α := fun s => .ret (.ok (f s)) s

def update (f : σ → σ) : Prog σ ε Unit := fun s => .ret (.ok ()) (f s)

/-- `assert(p)`. -/
def assert (b : Build) (p : Bool) : Prog σ ε Unit := fun s => b.check p s (.ret (.ok ()) s)

/-- `(void) p`: the error code is dropped and the caller goes on. -/
def ignore (p : Prog σ ε α) : Prog σ ε Unit := fun s =>
  match p s with
  | .ret _ t => .ret (.ok ()) t
  | .stop w t => .stop w t

/-- The result as a value: the caller looks at the error code itself. -/
def attempt (p : Prog σ ε α) : Prog σ ε (Except ε α) := fun s =>
  match p s with
  | .ret r t => .ret (.ok r) t
  | .stop w t => .stop w t

/-- Where a caller that looks at the result goes on: at `ok a` or at `err e`. -/
def settle (p : Prog σ ε α) (ok : α → β) (err : ε → β) : Prog σ ε β := fun s =>
  match p s with
  | .ret (.ok a) t => .ret (.ok (ok a)) t
  | .ret (.error e) t => .ret (.ok (err e)) t
  | .stop w t => .stop w t

/-- `if (res != SUCCESS) { cleanup; return res; }` after `p`. -/
def onError (p : Prog σ ε α) (cleanup : Prog σ ε Unit) : Prog σ ε α := fun s =>
  match p s with
  | .ret (.ok a) t => .ret (.ok a) t
  | .ret (.error e) t =>
    match cleanup t with
    | .ret _ t => .ret (.error e) t
    | .stop w t => .stop w t
  | .stop w t => .stop w t

@[simp] theorem pure_apply (a : α) (s : σ) : (pure a : Prog σ ε α) s = .ret (.ok a) s := rfl
@[simp] theorem fail_apply (e : ε) (s : σ) : (fail e : Prog σ ε α) s = .ret (.error e) s := rfl
@[simp] theorem halt_apply (w : Stop) (s : σ) : (halt w : Prog σ ε α) s = .stop w s := rfl
@[simp] theorem read_apply (f : σ → α) (s : σ) : (read f : Prog σ ε α) s = .ret (.ok (f s)) s := rfl
@[simp] theorem update_apply (f : σ → σ) (s : σ) :
    (update f : Prog σ ε Unit) s = .ret (.ok ()) (f s) := rfl

theorem bind_apply (p : Prog σ ε α) (k : α → Prog σ ε β) (s : σ) :
    (p >>= k) s = match p s with
      | .ret (.ok a) t => k a t
      | .ret (.error e) t => .ret (.error e) t
      | .stop w t => .stop w t := rfl

theorem bind_ok {p : Prog σ ε α} {k : α → Prog σ ε β} {s t : σ} {a : α}
    (h : p s = .ret (.ok a) t) : (p >>= k) s = k a t := by
  rw [bind_apply, h]

theorem bind_error {p : Prog σ ε α} {k : α → Prog σ ε β} {s t : σ} {e : ε}
    (h : p s = .ret (.error e) t) : (p >>= k) s = .ret (.error e) t := by
  rw [bind_apply, h]

theorem bind_stop {p : Prog σ ε α} {k : α → Prog σ ε β} {s t : σ} {w : Stop}
    (h : p s = .stop w t) : (p >>= k) s = .stop w t := by
  rw [bind_apply, h]

/-- An error of a sequence is one of another sequence that begins alike, if the rests agree on it. -/
theorem bind_error_of {k k' : α → Prog σ ε β} {p : Prog σ ε α} {s t : σ} {e : ε}
    (h : (p >>= k) s = .ret (.error e) t)
    (hk : ∀ a u, k a u = .ret (.error e) t → k' a u = .ret (.error e) t) :
    (p >>= k') s = .ret (.error e) t := by
  cases hp : p s with
  | ret r u =>
    cases r with
    | ok a => exact (bind_ok hp).trans (hk a u ((bind_ok hp).symm.trans h))
    | error e' => exact (bind_error hp).trans ((bind_error hp).symm.trans h)
  | stop w u => cases (bind_stop hp).symm.trans h

/-- A sequence that returned: so did its first part, and then the rest. -/
theorem exists_of_bind_ok {p : Prog σ ε α} {k : α → Prog σ ε β} {s t : σ} {c : β}
    (h : (p >>= k) s = .ret (.ok c) t) :
    ∃ a u, p s = .ret (.ok a) u ∧ k a u = .ret (.ok c) t := by
  cases hp : p s with
  | ret r u =>
    cases r with
    | ok a => exact ⟨a, u, rfl, (bind_ok hp).symm.trans h⟩
    | error e => cases (bind_error hp).symm.trans h
  | stop w u => cases (bind_stop hp).symm.trans h

/-! ## How a run ends, whatever it leaves behind -/

/-- `p` run from `s` returns or bails out with `r`. -/
def Ends (p : Prog σ ε α) (s : σ) (r : Except ε α) : Prop := ∃ t, p s = .ret r t

section Ends

variable {p : Prog σ ε α} {k : α → Prog σ ε β} {s t : σ} {a : α} {e : ε}

theorem Ends.pure (a : α) (s : σ) : (pure a : Prog σ ε α).Ends s (.ok a) := ⟨s, rfl⟩

theorem Ends.fail (e : ε) (s : σ) : (Prog.fail e : Prog σ ε α).Ends s (.error e) := ⟨s, rfl⟩

/-- The first part has returned. -/
theorem Ends.after {r : Except ε β} (h : p s = .ret (.ok a) t) (hk : (k a).Ends t r) :
    (p >>= k).Ends s r := by
  obtain ⟨u, hu⟩ := hk
  exact ⟨u, (bind_ok h).trans hu⟩

/-- The first part bails out, and so does the whole. -/
theorem Ends.bind (h : p.Ends s (.error e)) : (p >>= k).Ends s (.error e) := by
  obtain ⟨t, ht⟩ := h
  exact ⟨t, bind_error ht⟩

/-- Two sequences that begin alike bail out alike, if the rests do. -/
theorem Ends.error_of {γ : Type} {k' : α → Prog σ ε γ} (h : (p >>= k).Ends s (.error e))
    (hk : ∀ a u, (k a).Ends u (.error e) → (k' a).Ends u (.error e)) :
    (p >>= k').Ends s (.error e) := by
  obtain ⟨t, ht⟩ := h
  cases hp : p s with
  | ret r u =>
    cases r with
    | ok a => exact .after hp (hk a u ⟨t, (bind_ok hp).symm.trans ht⟩)
    | error e' =>
      cases (bind_error hp).symm.trans ht
      exact .bind ⟨t, hp⟩
  | stop w u => cases (bind_stop hp).symm.trans ht

theorem Ends.settle_ok (h : p.Ends s (.ok a)) (ok : α → β) (err : ε → β) :
    (p.settle ok err).Ends s (.ok (ok a)) := by
  obtain ⟨t, ht⟩ := h
  exact ⟨t, by simp only [settle, ht]⟩

theorem Ends.settle_error (h : p.Ends s (.error e)) (ok : α → β) (err : ε → β) :
    (p.settle ok err).Ends s (.ok (err e)) := by
  obtain ⟨t, ht⟩ := h
  exact ⟨t, by simp only [settle, ht]⟩

end Ends

/-- An assertion that holds, or is compiled out. -/
theorem assert_ok {b : Build} {c : Bool} {s : σ} (h : b.ndebug = true ∨ c = true) :
    (assert b c : Prog σ ε Unit) s = .ret (.ok ()) s := Build.check_pos h

theorem seq_pure (p : Prog σ ε α) : seq p (fun a => (pure a : Prog σ ε α)) = p := by
  funext s
  unfold seq
  cases p s with
  | ret r t => cases r <;> rfl
  | stop w t => rfl

theorem seq_assoc {γ : Type} (p : Prog σ ε α) (k : α → Prog σ ε β) (l : β → Prog σ ε γ) :
    seq (seq p k) l = seq p fun a => seq (k a) l := by
  funext s
  unfold seq
  cases p s with
  | ret r t => cases r <;> rfl
  | stop w t => rfl

instance : LawfulMonad (Prog σ ε) :=
  .mk' _ (fun p => seq_pure p) (fun _ _ => rfl) (fun p k l => seq_assoc p k l)

section Errors

variable (p : Prog σ ε α) (k : α → Prog σ ε β) (c : Prog σ ε Unit)

theorem attempt_pure (a : α) : (pure a : Prog σ ε α).attempt = pure (.ok a) := rfl

theorem attempt_bind :
    (p >>= k).attempt = p.attempt >>= fun r =>
      match r with
      | .ok a => (k a).attempt
      | .error e => pure (.error e) := by
  funext s
  simp only [attempt, bind_apply]
  cases p s with
  | ret r t => cases r <;> rfl
  | stop w t => rfl

theorem settle_bind {γ : Type} (ok : α → β) (err : ε → β) (f : β → Prog σ ε γ) :
    (p.settle ok err >>= f) = p.attempt >>= fun r =>
      match r with
      | .ok a => f (ok a)
      | .error e => f (err e) := by
  funext s
  simp only [settle, attempt, bind_apply]
  cases p s with
  | ret r t => cases r <;> rfl
  | stop w t => rfl

theorem attempt_onError :
    (p.onError c).attempt = p.attempt >>= fun r =>
      match r with
      | .ok a => pure (.ok a)
      | .error e => do
        c.ignore
        return .error e := by
  funext s
  simp only [attempt, onError, bind_apply]
  cases p s with
  | ret r t =>
    cases r with
    | ok a => rfl
    | error e =>
      simp only [bind_apply, ignore]
      cases c t <;> rfl
  | stop w t => rfl

/-- Ignoring errors twice is ignoring them once. -/
theorem ignore_ignore_bind (f : Prog σ ε Unit) :
    (do p.ignore; f : Prog σ ε Unit).ignore = (do p.ignore; f.ignore) := by
  funext s
  simp only [ignore, bind_apply]
  cases p s <;> rfl

theorem ignore_update_bind (f : σ → σ) :
    (do update f; c : Prog σ ε Unit).ignore = (do update f; c.ignore) := rfl

end Errors

/-! ## Postconditions -/

/-- How `p` run from `s` can end. -/
structure Post (p : Prog σ ε α) (s : σ) (Q : α → σ → Prop) (E : ε → σ → Prop)
    (S : Stop → σ → Prop) : Prop where
  of_ret : ∀ {a : α} {t : σ}, p s = .ret (.ok a) t → Q a t
  of_error : ∀ {e : ε} {t : σ}, p s = .ret (.error e) t → E e t
  of_stop : ∀ {w : Stop} {t : σ}, p s = .stop w t → S w t

variable {p : Prog σ ε α} {k : α → Prog σ ε β} {s t : σ}
variable {Q : α → σ → Prop} {R : β → σ → Prop} {E : ε → σ → Prop} {S : Stop → σ → Prop}

/-- The three cases read off the outcome: for bodies small enough to be run symbolically. -/
theorem post_iff : Post p s Q E S ↔
    match p s with
    | .ret (.ok a) t => Q a t
    | .ret (.error e) t => E e t
    | .stop w t => S w t := by
  constructor
  · intro h
    cases hp : p s with
    | ret res t =>
      cases res with
      | ok a => exact h.of_ret hp
      | error e => exact h.of_error hp
    | stop w t => exact h.of_stop hp
  · intro h
    refine ⟨fun hp => ?_, fun hp => ?_, fun hp => ?_⟩ <;> simpa only [hp] using h

/-- **The sequencing rule.** -/
theorem Post.bind (h : Post p s Q E S) (hk : ∀ a t, Q a t → Post (k a) t R E S) :
    Post (p >>= k) s R E S := by
  rw [post_iff]
  cases hp : p s with
  | ret res t =>
    cases res with
    | ok a =>
      rw [bind_ok hp]
      exact post_iff.mp (hk a t (h.of_ret hp))
    | error e =>
      rw [bind_error hp]
      exact h.of_error hp
  | stop w t =>
    rw [bind_stop hp]
    exact h.of_stop hp

theorem Post.mono {Q' : α → σ → Prop} {E' : ε → σ → Prop} {S' : Stop → σ → Prop}
    (h : Post p s Q E S) (hQ : ∀ a t, Q a t → Q' a t) (hE : ∀ e t, E e t → E' e t)
    (hS : ∀ w t, S w t → S' w t) : Post p s Q' E' S' :=
  ⟨fun hp => hQ _ _ (h.of_ret hp), fun hp => hE _ _ (h.of_error hp), fun hp => hS _ _ (h.of_stop hp)⟩

/-- Less is said of the returns. -/
theorem Post.mapRet {Q' : α → σ → Prop} (h : Post p s Q E S) (hQ : ∀ a t, Q a t → Q' a t) :
    Post p s Q' E S :=
  h.mono hQ (fun _ _ h' => h') fun _ _ h' => h'

/-- Less is said of the stops. -/
theorem Post.mapStop {S' : Stop → σ → Prop} (h : Post p s Q E S) (hS : ∀ w t, S w t → S' w t) :
    Post p s Q E S' :=
  h.mono (fun _ _ h' => h') (fun _ _ h' => h') hS

/-- Two things known of the same run. -/
theorem Post.and {Q' : α → σ → Prop} {E' : ε → σ → Prop} {S' : Stop → σ → Prop}
    (h : Post p s Q E S) (h' : Post p s Q' E' S') :
    Post p s (fun a t => Q a t ∧ Q' a t) (fun e t => E e t ∧ E' e t) fun w t => S w t ∧ S' w t :=
  ⟨fun hp => ⟨h.of_ret hp, h'.of_ret hp⟩, fun hp => ⟨h.of_error hp, h'.of_error hp⟩,
    fun hp => ⟨h.of_stop hp, h'.of_stop hp⟩⟩

/-- One more thing known of the returns. -/
theorem Post.also {Q' : α → σ → Prop} {E' : ε → σ → Prop} {S' : Stop → σ → Prop}
    (h : Post p s Q E S) (h' : Post p s Q' E' S') :
    Post p s (fun a t => Q a t ∧ Q' a t) E S :=
  ⟨fun hp => ⟨h.of_ret hp, h'.of_ret hp⟩, fun hp => h.of_error hp, fun hp => h.of_stop hp⟩

/-- A run that can neither bail out nor be stopped returns. -/
theorem Post.exists_ret (h : Post p s Q E S) (hE : ∀ e t, ¬ E e t) (hS : ∀ w t, ¬ S w t) :
    ∃ a t, p s = .ret (.ok a) t ∧ Q a t := by
  cases hp : p s with
  | ret res t =>
    cases res with
    | ok a => exact ⟨a, t, rfl, h.of_ret hp⟩
    | error e => exact absurd (h.of_error hp) (hE e t)
  | stop w t => exact absurd (h.of_stop hp) (hS w t)

/-- A run that can neither return nor be stopped bails out. -/
theorem Post.exists_error (h : Post p s Q E S) (hQ : ∀ a t, ¬ Q a t) (hS : ∀ w t, ¬ S w t) :
    ∃ e t, p s = .ret (.error e) t ∧ E e t := by
  cases hp : p s with
  | ret res t =>
    cases res with
    | ok a => exact absurd (h.of_ret hp) (hQ a t)
    | error e => exact ⟨e, t, rfl, h.of_error hp⟩
  | stop w t => exact absurd (h.of_stop hp) (hS w t)

/-- A run that can neither return nor bail out is stopped. -/
theorem Post.exists_stop (h : Post p s Q E S) (hQ : ∀ a t, ¬ Q a t) (hE : ∀ e t, ¬ E e t) :
    ∃ w t, p s = .stop w t ∧ S w t := by
  cases hp : p s with
  | ret res t =>
    cases res with
    | ok a => exact absurd (h.of_ret hp) (hQ a t)
    | error e => exact absurd (h.of_error hp) (hE e t)
  | stop w t => exact ⟨w, t, rfl, h.of_stop hp⟩

/-- Why a run did not return. -/
theorem Post.of_stopped? {why : Stop} (h : Post p s Q E S) (hwhy : why ∈ (p s).stopped?) :
    ∃ t, S why t := by
  cases hp : p s with
  | ret res t =>
    rw [hp] at hwhy
    cases hwhy
  | stop w t =>
    rw [hp] at hwhy
    cases hwhy
    exact ⟨t, h.of_stop hp⟩

/-- What only the last part of a sequence decides. -/
theorem Post.last (hk : ∀ a t, Post (k a) t R (fun _ _ => True) fun _ _ => True) :
    Post (p >>= k) s R (fun _ _ => True) fun _ _ => True := by
  have hany : Post p s (fun _ _ => True) (fun _ _ => True) fun _ _ => True :=
    ⟨fun _ => trivial, fun _ => trivial, fun _ => trivial⟩
  exact hany.bind fun a t _ => hk a t

theorem Post.pure {a : α} (h : Q a s) : Post (Pure.pure a : Prog σ ε α) s Q E S := post_iff.mpr h

theorem Post.fail {e : ε} (h : E e s) : Post (Prog.fail e : Prog σ ε α) s Q E S := post_iff.mpr h

theorem Post.halt {w : Stop} (h : S w s) : Post (Prog.halt w : Prog σ ε α) s Q E S :=
  post_iff.mpr h

theorem Post.read {f : σ → α} (h : Q (f s) s) : Post (Prog.read f : Prog σ ε α) s Q E S :=
  post_iff.mpr h

theorem Post.update {f : σ → σ} {Q : Unit → σ → Prop} (h : Q () (f s)) :
    Post (Prog.update f : Prog σ ε Unit) s Q E S := post_iff.mpr h

/-- An assertion that holds changes nothing; one that fails stops the process where it stands. -/
theorem Post.assert {b : Build} {c : Bool} {Q : Unit → σ → Prop}
    (h : b.ndebug = true ∨ c = true → Q () s)
    (hS : b.ndebug = false → c = false → S .assertion s) :
    Post (Prog.assert b c : Prog σ ε Unit) s Q E S := by
  rw [post_iff]
  cases hc : (b.ndebug || c) with
  | true =>
    simp only [Prog.assert, Build.check, hc, if_true]
    exact h (by simpa using hc)
  | false =>
    simp only [Prog.assert, Build.check, hc, Bool.false_eq_true, if_false]
    obtain ⟨h₁, h₂⟩ := Bool.or_eq_false_iff.mp hc
    exact hS h₁ h₂

/-- An assertion, by whether it is compiled in. -/
theorem Post.asserted {b : Build} {c : Bool} :
    Post (Prog.assert b c : Prog σ ε Unit) s (fun _ t => t = s ∧ (b.ndebug = false → c = true)) E
      (fun why t => why = .assertion ∧ t = s ∧ b.ndebug = false ∧ c = false) := by
  refine Post.assert (fun h => ⟨rfl, fun hb => ?_⟩) fun hb hc => ⟨rfl, rfl, hb, hc⟩
  rcases h with hn | hc
  · exact absurd (hb.symm.trans hn) nofun
  · exact hc

/-- An assertion that holds. -/
theorem Post.assert_holds {b : Build} {c : Bool} (h : b.ndebug = false → c = true) :
    Post (Prog.assert b c : Prog σ ε Unit) s (fun _ t => t = s) E S := by
  refine Post.assert (fun _ => rfl) fun hb hfalse => ?_
  exact absurd ((h hb).symm.trans hfalse) nofun

theorem Post.ignore {Q' : Unit → σ → Prop} {E' : ε → σ → Prop} (h : Post p s Q E S)
    (hQ : ∀ a t, Q a t → Q' () t) (hE : ∀ e t, E e t → Q' () t) :
    Post (Prog.ignore p) s Q' E' S := by
  rw [post_iff, Prog.ignore]
  cases hp : p s with
  | ret res t =>
    cases res with
    | ok a => exact hQ a t (h.of_ret hp)
    | error e => exact hE e t (h.of_error hp)
  | stop w t => exact h.of_stop hp

theorem Post.attempt (h : Post p s Q E S) {F : ε → σ → Prop} :
    Post (Prog.attempt p) s (fun r t => match r with | .ok a => Q a t | .error e => E e t) F S := by
  rw [post_iff, Prog.attempt]
  cases hp : p s with
  | ret res t =>
    cases res with
    | ok a => exact h.of_ret hp
    | error e => exact h.of_error hp
  | stop w t => exact h.of_stop hp

theorem Post.settle (h : Post p s Q E S) (ok : α → β) (err : ε → β) {R : β → σ → Prop}
    {F : ε → σ → Prop} (hok : ∀ a t, Q a t → R (ok a) t) (herr : ∀ e t, E e t → R (err e) t) :
    Post (Prog.settle p ok err) s R F S := by
  rw [post_iff, Prog.settle]
  cases hp : p s with
  | ret res t =>
    cases res with
    | ok a => exact hok a t (h.of_ret hp)
    | error e => exact herr e t (h.of_error hp)
  | stop w t => exact h.of_stop hp

theorem Post.onError {c : Prog σ ε Unit} {D : ε → σ → Prop} (h : Post p s Q D S)
    (hc : ∀ e t, D e t → Post c t (fun _ t' => E e t') (fun _ t' => E e t') S) :
    Post (Prog.onError p c) s Q E S := by
  rw [post_iff, Prog.onError]
  cases hp : p s with
  | ret res t =>
    cases res with
    | ok a => exact h.of_ret hp
    | error e =>
      have hclean := hc e t (h.of_error hp)
      dsimp only
      cases hct : c t with
      | ret r t' =>
        cases r with
        | ok u => exact hclean.of_ret hct
        | error e' => exact hclean.of_error hct
      | stop w t' => exact hclean.of_stop hct
  | stop w t => exact h.of_stop hp

/-! ## What a body leaves alone -/

/-- However `p` ends, `v` of the state is what it was. -/
def Keeps {γ : Type} (v : σ → γ) (p : Prog σ ε α) : Prop :=
  ∀ s, Post p s (fun _ t => v t = v s) (fun _ t => v t = v s) fun _ t => v t = v s

section Keeps

variable {γ : Type} {v : σ → γ}

theorem Keeps.bind (h : Keeps v p) (hk : ∀ a, Keeps v (k a)) : Keeps v (p >>= k) := by
  intro s
  refine (h s).bind fun a t ht => ?_
  exact (hk a t).mono (fun _ _ h' => h'.trans ht) (fun _ _ h' => h'.trans ht)
    fun _ _ h' => h'.trans ht

theorem Keeps.pure (a : α) : Keeps v (Pure.pure a : Prog σ ε α) := fun _ => Post.pure rfl

theorem Keeps.fail (e : ε) : Keeps v (Prog.fail e : Prog σ ε α) := fun _ => Post.fail rfl

theorem Keeps.halt (w : Stop) : Keeps v (Prog.halt w : Prog σ ε α) := fun _ => Post.halt rfl

theorem Keeps.assert (b : Build) (c : Bool) : Keeps v (Prog.assert b c : Prog σ ε Unit) :=
  fun _ => Post.assert (fun _ => rfl) fun _ _ => rfl

theorem Keeps.ignore (h : Keeps v p) : Keeps v (Prog.ignore p) :=
  fun s => (h s).ignore (fun _ _ h' => h') fun _ _ h' => h'

end Keeps

/-! ## What a body cannot break -/

/-- However `p` ends, `I` still holds. -/
def Preserves (I : σ → Prop) (p : Prog σ ε α) : Prop :=
  ∀ s, I s → Post p s (fun _ t => I t) (fun _ t => I t) fun _ t => I t

section Preserves

variable {I : σ → Prop}

/-- `I` only looks at what `p` leaves alone. -/
theorem Keeps.preserves {γ : Type} {v : σ → γ} (h : Keeps v p)
    (hI : ∀ s t, v t = v s → I s → I t) : Preserves I p := by
  intro s hs
  exact (h s).mono (fun _ t ht => hI s t ht hs) (fun _ t ht => hI s t ht hs)
    fun _ t ht => hI s t ht hs

/-- Sequencing, when what follows needs to know something of the value. -/
theorem Preserves.bind_of {P : α → Prop}
    (h : ∀ s, I s → Post p s (fun a t => P a ∧ I t) (fun _ t => I t) fun _ t => I t)
    (hk : ∀ a, P a → Preserves I (k a)) : Preserves I (p >>= k) := by
  intro s hs
  exact (h s hs).bind fun a t ht => hk a ht.1 t ht.2

theorem Preserves.bind (h : Preserves I p) (hk : ∀ a, Preserves I (k a)) :
    Preserves I (p >>= k) := by
  intro s hs
  exact (h s hs).bind fun a t ht => hk a t ht

theorem Preserves.pure (a : α) : Preserves I (Pure.pure a : Prog σ ε α) := fun _ hs => Post.pure hs

theorem Preserves.fail (e : ε) : Preserves I (Prog.fail e : Prog σ ε α) := fun _ hs => Post.fail hs

theorem Preserves.halt (w : Stop) : Preserves I (Prog.halt w : Prog σ ε α) :=
  fun _ hs => Post.halt hs

theorem Preserves.update {f : σ → σ} (h : ∀ s, I s → I (f s)) :
    Preserves I (Prog.update f : Prog σ ε Unit) := fun s hs => Post.update (h s hs)

theorem Preserves.assert (b : Build) (c : Bool) : Preserves I (Prog.assert b c : Prog σ ε Unit) :=
  fun _ hs => Post.assert (fun _ => hs) fun _ _ => hs

theorem Preserves.ignore (h : Preserves I p) : Preserves I (Prog.ignore p) :=
  fun s hs => (h s hs).ignore (fun _ _ h' => h') fun _ _ h' => h'

theorem Preserves.onError {c : Prog σ ε Unit} (h : Preserves I p) (hc : Preserves I c) :
    Preserves I (Prog.onError p c) :=
  fun s hs => (h s hs).onError fun _ t ht => hc t ht

end Preserves

end Prog

end Lib
