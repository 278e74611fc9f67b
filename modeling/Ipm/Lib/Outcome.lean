import Mathlib.Logic.Basic

/-!
# What a C call can come to

A call on shared state `σ` either returns a value, or its process is stopped in the middle: by a
failed `assert`, by a signal for touching memory that is not there, or by spinning on a condition
nobody will make true. In the second case the shared state is *whatever the call had written so
far*, and other processes go on from it. So the stopped case carries the state as well, and that
is the only difference from an exception.
-/

set_option autoImplicit false

namespace Lib

/-- Why a call did not return. -/
inductive Stop where
  /-- `assert` failed: the process aborts. -/
  | assertion
  /-- An access outside mapped memory, or to a page past the end of a mapped file. -/
  | fault
  /-- A busy wait whose condition nothing in flight will change. -/
  | spin
  deriving DecidableEq, Repr

/-- The end of a call: returned with a value, or stopped, and the shared state left behind. -/
inductive Outcome (σ α : Type) where
  | ret (a : α) (s : σ)
  | stop (why : Stop) (s : σ)

namespace Outcome

variable {σ τ α β : Type}

/-- The shared state a call leaves behind, however it ended. -/
def shared : Outcome σ α → σ
  | ret _ s => s
  | stop _ s => s

/-- The value, if the call returned. -/
def value? : Outcome σ α → Option α
  | ret a _ => some a
  | stop _ _ => none

/-- Why the call did not return, if it did not. -/
def stopped? : Outcome σ α → Option Stop
  | ret _ _ => none
  | stop why _ => some why

/-- Sequencing: the rest of the program runs only if the call returned. -/
def andThen (o : Outcome σ α) (k : α → σ → Outcome σ β) : Outcome σ β :=
  match o with
  | ret a s => k a s
  | stop w s => stop w s

/-- A call that works on a part of a larger state. -/
def within (o : Outcome σ α) (put : σ → τ) : Outcome τ α :=
  match o with
  | ret a s => ret a (put s)
  | stop w s => stop w (put s)

@[simp] theorem shared_ret (a : α) (s : σ) : (ret a s).shared = s := rfl
@[simp] theorem shared_stop (w : Stop) (s : σ) : (stop w s : Outcome σ α).shared = s := rfl
@[simp] theorem value?_ret (a : α) (s : σ) : (ret a s).value? = some a := rfl
@[simp] theorem value?_stop (w : Stop) (s : σ) : (stop w s : Outcome σ α).value? = none := rfl
@[simp] theorem stopped?_ret (a : α) (s : σ) : (ret a s).stopped? = none := rfl
@[simp] theorem stopped?_stop (w : Stop) (s : σ) : (stop w s : Outcome σ α).stopped? = some w := rfl
@[simp] theorem andThen_ret (a : α) (s : σ) (k : α → σ → Outcome σ β) :
    (ret a s).andThen k = k a s := rfl
@[simp] theorem andThen_stop (w : Stop) (s : σ) (k : α → σ → Outcome σ β) :
    (stop w s : Outcome σ α).andThen k = stop w s := rfl
@[simp] theorem within_ret (a : α) (s : σ) (put : σ → τ) :
    (ret a s).within put = ret a (put s) := rfl
@[simp] theorem within_stop (w : Stop) (s : σ) (put : σ → τ) :
    (stop w s : Outcome σ α).within put = stop w (put s) := rfl

/-- A continuation that only files the result leaves the state alone. -/
theorem shared_andThen_ret (o : Outcome σ α) (f : α → β) :
    (o.andThen fun a s => ret (f a) s).shared = o.shared := by
  cases o <;> rfl

/-- What a continuation leaves alone, the whole leaves as its first part left it. -/
theorem shared_andThen_of {γ : Type} {f : σ → γ} (o : Outcome σ α) {k : α → σ → Outcome σ β}
    (hk : ∀ a s, f (k a s).shared = f s) : f (o.andThen k).shared = f o.shared := by
  cases o with
  | ret a s => exact hk a s
  | stop w s => rfl

end Outcome

/-- How the code was compiled: `NDEBUG` removes the assertions. -/
structure Build where
  ndebug : Bool
  deriving DecidableEq, Repr

/-- `assert(p)`, with shared state `s` at that point and `k` the rest of the function. -/
def Build.check {σ α : Type} (b : Build) (p : Bool) (s : σ) (k : Outcome σ α) : Outcome σ α :=
  if b.ndebug || p then k else .stop .assertion s

@[simp] theorem Build.check_true {σ α : Type} (b : Build) (s : σ) (k : Outcome σ α) :
    b.check true s k = k := by
  simp [Build.check]

/-- A failed assertion leaves things as they are. -/
theorem Build.shared_check {σ α γ : Type} {f : σ → γ} {c : γ} (b : Build) {p : Bool} {s : σ}
    {k : Outcome σ α} (hs : f s = c) (hk : f k.shared = c) : f (b.check p s k).shared = c := by
  unfold Build.check
  split
  · exact hk
  · exact hs

theorem Build.check_pos {σ α : Type} {b : Build} {p : Bool} {s : σ} {k : Outcome σ α}
    (h : b.ndebug = true ∨ p = true) : b.check p s k = k := by
  rcases h with h | h <;> simp [Build.check, h]

end Lib
