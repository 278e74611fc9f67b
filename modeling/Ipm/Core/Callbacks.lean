import Mathlib.Data.List.Forall2
import Ipm.Core.Common
import Ipm.Lib.Reach

/-!
# `ipm_common.c`: memory and messages

The library has its memory from the user, through the callbacks of an `ipm_context`, and its messages go
there. A message needs memory of its own, and a lack of memory is a message. The callbacks are functions on
a state of the user's here, about which nothing is assumed, and beside that state is kept what they have
been asked.

Whatever they answer, the allocator is owed what the library owns and nothing more, and is never given
anything else back; and nothing the library has to say is said twice or not at all
(`served_of_reach`). The note that memory is short always fits its buffer.
-/

set_option autoImplicit false

namespace Ipm

open Lib

/-- `ipm_context`, each callback with its parameter. The report callback may be missing. -/
structure Callbacks (σ : Type) where
  report : Option (CString → σ → σ)
  alloc : UInt64 → σ → Option Nat × σ
  free : Nat → σ → σ

/-- What a callback has been asked, and what an allocation has given. -/
inductive CallbackUse where
  | alloc (size : UInt64) (ptr : Option Nat)
  | free (ptr : Nat)
  | report (msg : CString)
  deriving DecidableEq

/-- The user, and what has been asked so far. -/
structure Served (σ : Type) where
  user : σ
  uses : List CallbackUse

/-- `"Could not allocate %zu bytes"`. -/
def allocText (size : UInt64) : CString :=
  "Could not allocate ".toList ++ Nat.toDigits 10 size.toNat ++ " bytes".toList

/-- `snprintf` into a buffer of 64 bytes. -/
def allocNote (size : UInt64) : CString := (allocText size).take 63

namespace Callbacks

variable {σ : Type}

def askAlloc (ctx : Callbacks σ) (size : UInt64) (s : Served σ) : Option Nat × Served σ :=
  let r := ctx.alloc size s.user
  (r.1, ⟨r.2, s.uses ++ [.alloc size r.1]⟩)

/-- `if (context->report_callback) context->report_callback(msg, …)`. -/
def tell (ctx : Callbacks σ) (msg : CString) (s : Served σ) : Served σ :=
  match ctx.report with
  | none => s
  | some report => ⟨report msg s.user, s.uses ++ [.report msg]⟩

/-- `ipm_alloc_real`. -/
def ipmAllocReal (ctx : Callbacks σ) (size : UInt64) (s : Served σ) : Option Nat × Served σ :=
  match ctx.askAlloc size s with
  | (some ptr, s) => (some ptr, s)
  | (none, s) => (none, ctx.tell (allocNote size) s)

/-- `ipm_free`. -/
def ipmFree (ctx : Callbacks σ) (ptr : Option Nat) (s : Served σ) : Served σ :=
  match ptr with
  | none => s
  | some ptr => ⟨ctx.free ptr s.user, s.uses ++ [.free ptr]⟩

/-- `ipm_report_error`; `text` is what `vsnprintf` makes of the format, `none` when it fails. -/
def ipmReportError (ctx : Callbacks σ) (text : Option CString) (s : Served σ) : Served σ :=
  if ctx.report.isNone then s
  else
    match text with
    | none => s
    | some [] => s
    | some msg =>
      match ctx.ipmAllocReal (.ofNat (msg.length + 1)) s with
      | (none, s) => s
      | (some buffer, s) => ctx.ipmFree (some buffer) (ctx.tell msg s)

end Callbacks

/-! ## The note -/

theorem length_toDigits_size (size : UInt64) : (Nat.toDigits 10 size.toNat).length ≤ 20 := by
  refine (Nat.length_toDigits_le_iff (by decide) (by decide)).mpr ?_
  exact Nat.lt_trans size.toNat_lt (by omega)

theorem length_allocText (size : UInt64) :
    (allocText size).length = 19 + (Nat.toDigits 10 size.toNat).length + 6 :=
  (List.length_append ..).trans (congrArg (· + 6) (List.length_append ..))

/-- **The note is whole**: 64 bytes are enough for every size. -/
theorem allocNote_eq (size : UInt64) : allocNote size = allocText size := by
  have hlen := length_toDigits_size size
  have hfits : (allocText size).length ≤ 63 := by
    rw [length_allocText]
    omega
  exact List.take_of_length_le hfits

/-! ## What the user is owed, and has heard -/

/-- The pointers to be freed after some uses, when `owed` are to be freed before. `none` is a pointer freed
that was not to be. -/
def owedAfter (owed : List Nat) : List CallbackUse → Option (List Nat)
  | [] => some owed
  | .alloc _ (some ptr) :: uses => owedAfter (ptr :: owed) uses
  | .alloc _ none :: uses => owedAfter owed uses
  | .free ptr :: uses => if ptr ∈ owed then owedAfter (owed.erase ptr) uses else none
  | .report _ :: uses => owedAfter owed uses

theorem owedAfter_append (uses more : List CallbackUse) (owed : List Nat) :
    owedAfter owed (uses ++ more) = (owedAfter owed uses).bind fun owed => owedAfter owed more := by
  induction uses generalizing owed with
  | nil => rfl
  | cons use uses ih =>
    cases use with
    | alloc size ptr =>
      cases ptr with
      | none => exact ih owed
      | some ptr => exact ih (ptr :: owed)
    | free ptr =>
      simp only [List.cons_append, owedAfter]
      split
      · exact ih _
      · rfl
    | report msg => exact ih owed

/-- What has been said, each time with the size of the allocation that had just failed, if one had.
`failed` is that of the last use before these. -/
def messages (failed : Option UInt64) : List CallbackUse → List (Option UInt64 × CString)
  | [] => []
  | .report msg :: uses => (failed, msg) :: messages none uses
  | .alloc size none :: uses => messages (some size) uses
  | .alloc _ (some _) :: uses => messages none uses
  | .free _ :: uses => messages none uses

/-- The size of the last use, if that is an allocation that failed. -/
def failedLast (failed : Option UInt64) : List CallbackUse → Option UInt64
  | [] => failed
  | .alloc size none :: uses => failedLast (some size) uses
  | .alloc _ (some _) :: uses => failedLast none uses
  | .free _ :: uses => failedLast none uses
  | .report _ :: uses => failedLast none uses

theorem messages_append (uses more : List CallbackUse) (failed : Option UInt64) :
    messages failed (uses ++ more) = messages failed uses ++ messages (failedLast failed uses) more := by
  induction uses generalizing failed with
  | nil => rfl
  | cons use uses ih =>
    cases use with
    | alloc size ptr =>
      cases ptr with
      | none => exact ih _
      | some ptr => exact ih _
    | free ptr => exact ih _
    | report msg => exact congrArg ((failed, msg) :: ·) (ih _)

theorem failedLast_append (uses more : List CallbackUse) (failed : Option UInt64) :
    failedLast failed (uses ++ more) = failedLast (failedLast failed uses) more := by
  induction uses generalizing failed with
  | nil => rfl
  | cons use uses ih =>
    cases use with
    | alloc size ptr =>
      cases ptr with
      | none => exact ih _
      | some ptr => exact ih _
    | free ptr => exact ih _
    | report msg => exact ih _

/-- Something the library has to say. -/
inductive Complaint where
  | noMemory (size : UInt64)
  | error (text : CString)

/-- How it is said: a lack of memory right after the allocation that failed, and an error as it is, or,
right after the allocation for its text has failed, as that. -/
def Complaint.SaidBy (said : Option UInt64 × CString) : Complaint → Prop
  | .noMemory size => said = (some size, allocText size)
  | .error text => said = (none, text) ∨
      said = (some (.ofNat (text.length + 1)), allocText (.ofNat (text.length + 1)))

/-! ## The three functions -/

section Functions

variable {σ : Type} {ctx : Callbacks σ} {s s' : Served σ} {size : UInt64}

theorem uses_askAlloc : (ctx.askAlloc size s).2.uses =
    s.uses ++ [.alloc size (ctx.askAlloc size s).1] := rfl

/-- What has to be said, if there is somebody to say it to. -/
def Callbacks.Complains (ctx : Callbacks σ) (complaints : List Complaint) : List Complaint :=
  if ctx.report.isNone then [] else complaints

/-- What some uses say are the complaints, if a callback is there to hear them; then none of them is a
failure that has still to be told. -/
structure Voiced (ctx : Callbacks σ) (failed : Option UInt64) (uses : List CallbackUse)
    (complaints : List Complaint) : Prop where
  said : List.Forall₂ (fun c said => c.SaidBy said) (ctx.Complains complaints) (messages failed uses)
  told : ctx.report.isSome = true → failedLast failed uses = none

/-- The uses of one call: `owed` becomes `owed'`, and `complaints` are said. -/
structure Serves (ctx : Callbacks σ) (s s' : Served σ) (complaints : List Complaint)
    (owed owed' : List Nat) : Prop where
  uses : ∃ uses, s'.uses = s.uses ++ uses ∧ owedAfter owed uses = some owed' ∧
    ∀ failed, (ctx.report.isSome = true → failed = none) → Voiced ctx failed uses complaints

theorem complains_nil : ctx.Complains [] = [] := ite_self _

theorem complains_of_isSome (h : ctx.report.isSome = true) (complaints : List Complaint) :
    ctx.Complains complaints = complaints := by
  rw [Callbacks.Complains, if_neg]
  rw [Option.isNone_iff_eq_none]
  exact Option.isSome_iff_ne_none.mp h

theorem complains_of_none (h : ctx.report = none) (complaints : List Complaint) :
    ctx.Complains complaints = [] := by
  rw [Callbacks.Complains, h]
  rfl

theorem complains_append (complaints more : List Complaint) :
    ctx.Complains (complaints ++ more) = ctx.Complains complaints ++ ctx.Complains more := by
  simp only [Callbacks.Complains]
  split <;> rfl

theorem Voiced.append {failed : Option UInt64} {uses more : List CallbackUse}
    {complaints others : List Complaint} (h : Voiced ctx failed uses complaints)
    (h' : Voiced ctx (failedLast failed uses) more others) :
    Voiced ctx failed (uses ++ more) (complaints ++ others) := by
  constructor
  · rw [complains_append, messages_append]
    exact List.rel_append h.said h'.said
  · rw [failedLast_append]
    exact h'.told

/-- Nothing asked and nothing said. -/
theorem Serves.nothing (owed : List Nat) {complaints : List Complaint}
    (hquiet : ctx.Complains complaints = []) : Serves ctx s s complaints owed owed := by
  refine ⟨[], (List.append_nil _).symm, rfl, fun failed hfailed => ⟨?_, hfailed⟩⟩
  rw [hquiet]
  exact .nil

theorem tell_uses (msg : CString) : (ctx.tell msg s).uses =
    s.uses ++ if ctx.report.isNone then [] else [.report msg] := by
  rw [Callbacks.tell]
  cases ctx.report with
  | none => exact (List.append_nil _).symm
  | some report => rfl

/-- **`ipm_alloc_real`.** -/
theorem ipmAllocReal_serves (owed : List Nat) {ptr : Option Nat}
    (h : ctx.ipmAllocReal size s = (ptr, s')) :
    Serves ctx s s' (if ptr.isNone then [.noMemory size] else []) owed (ptr.toList ++ owed) := by
  rw [Callbacks.ipmAllocReal] at h
  cases hask : ctx.askAlloc size s with
  | mk answer s₁ =>
    have huses : (ctx.askAlloc size s).2.uses = s.uses ++ [.alloc size (ctx.askAlloc size s).1] :=
      uses_askAlloc
    rw [hask] at huses h
    cases answer with
    | some p =>
      obtain ⟨rfl, rfl⟩ := Prod.mk.inj h
      refine ⟨_, huses, rfl, fun failed _ => ⟨?_, fun _ => rfl⟩⟩
      rw [if_neg nofun, complains_nil]
      exact .nil
    | none =>
      obtain ⟨rfl, rfl⟩ := Prod.mk.inj h
      refine ⟨_, (tell_uses _).trans (by rw [huses, List.append_assoc]), ?_, fun failed _ => ?_⟩
      · split <;> rfl
      · show Voiced ctx failed _ [.noMemory size]
        cases hreport : ctx.report with
        | none =>
          constructor
          · rw [complains_of_none hreport]
            exact .nil
          · rw [hreport]
            exact nofun
        | some report =>
          constructor
          · rw [complains_of_isSome (by rw [hreport]; rfl)]
            exact .cons (congrArg _ (allocNote_eq size)) .nil
          · exact fun _ => rfl

/-- **`ipm_free`**, of a pointer that is owed or of none. -/
theorem ipmFree_serves {owed : List Nat} {ptr : Option Nat} (h : ∀ p ∈ ptr, p ∈ owed) :
    Serves ctx s (ctx.ipmFree ptr s) [] owed (ptr.elim owed owed.erase) := by
  cases ptr with
  | none => exact .nothing owed complains_nil
  | some p =>
    refine ⟨[.free p], rfl, if_pos (h p rfl), fun failed _ => ⟨?_, fun _ => rfl⟩⟩
    rw [complains_nil]
    exact .nil

/-- The complaint of a report, unless there is nothing to say. -/
def errorOf (text : Option CString) : List Complaint :=
  match text with
  | none => []
  | some [] => []
  | some msg => [.error msg]

/-- A text for which there is memory: it is passed on, and the memory given back. -/
theorem voiced_text (hreport : ctx.report.isSome = true) {failed : Option UInt64}
    {uses : List CallbackUse} (msg : CString) (p : Nat) (h : Voiced ctx failed uses []) :
    Voiced ctx failed (uses ++ [.report msg, .free p]) [.error msg] := by
  have htold : Voiced ctx (failedLast failed uses) [.report msg, .free p] [.error msg] := by
    refine ⟨?_, fun _ => rfl⟩
    rw [complains_of_isSome hreport, h.told hreport]
    exact .cons (.inl rfl) .nil
  exact h.append htold

/-- A text for which there is none: the note is all there is. -/
theorem Voiced.of_noMemory {failed : Option UInt64} {uses : List CallbackUse} {msg : CString}
    (hreport : ctx.report.isSome = true)
    (h : Voiced ctx failed uses [.noMemory (.ofNat (msg.length + 1))]) :
    Voiced ctx failed uses [.error msg] := by
  refine ⟨?_, h.told⟩
  have hsaid := h.said
  rw [complains_of_isSome hreport] at hsaid ⊢
  generalize messages failed uses = said at hsaid
  cases hsaid with
  | cons hnote hrest =>
    cases hrest with
    | nil => exact .cons (.inr hnote) .nil

/-- **`ipm_report_error`** owes nothing afterwards that it did not owe before. -/
theorem ipmReportError_serves (owed : List Nat) (text : Option CString) :
    Serves ctx s (ctx.ipmReportError text s) (errorOf text) owed owed := by
  unfold Callbacks.ipmReportError
  cases hreport : ctx.report with
  | none => exact .nothing owed (complains_of_none hreport _)
  | some report =>
    have hsome : ctx.report.isSome = true := by rw [hreport]; rfl
    rw [if_neg nofun]
    cases text with
    | none => exact .nothing owed complains_nil
    | some msg =>
      cases msg with
      | nil => exact .nothing owed complains_nil
      | cons c rest =>
        dsimp only
        cases halloc : ctx.ipmAllocReal (.ofNat ((c :: rest).length + 1)) s with
        | mk ptr s₁ =>
          obtain ⟨uses, huses, howed, hvoiced⟩ := ipmAllocReal_serves owed halloc
          cases ptr with
          | none =>
            exact ⟨uses, huses, howed, fun failed hfailed => (hvoiced failed hfailed).of_noMemory hsome⟩
          | some p =>
            refine ⟨uses ++ [.report (c :: rest), .free p], ?_, ?_, fun failed hfailed => ?_⟩
            · show (ctx.tell (c :: rest) s₁).uses ++ [.free p] = _
              rw [tell_uses, hreport, huses]
              simp
            · have hback : owedAfter (p :: owed) [.report (c :: rest), .free p] = some owed := by
                simp [owedAfter]
              rw [owedAfter_append, howed]
              exact hback
            · exact voiced_text hsome _ p (hvoiced failed hfailed)

end Functions

/-! ## Runs -/

/-- A user and the library: the pointers that `ipm_alloc` has returned and that have not been freed, and
what the library has had to say. -/
structure CallbackSys (σ : Type) where
  served : Served σ
  owned : List Nat
  complaints : List Complaint

inductive CallbackEvent where
  | alloc (size : UInt64)
  | free (ptr : Option Nat)
  | report (text : Option CString)

namespace CallbackSys

variable {σ : Type}

def init (user : σ) : CallbackSys σ := ⟨⟨user, []⟩, [], []⟩

/-- What is freed is owned. -/
def step (ctx : Callbacks σ) (s : CallbackSys σ) : CallbackEvent → Option (CallbackSys σ)
  | .alloc size =>
    let r := ctx.ipmAllocReal size s.served
    some { served := r.2
           owned := r.1.toList ++ s.owned
           complaints := s.complaints ++ if r.1.isNone then [.noMemory size] else [] }
  | .free ptr =>
    if ∀ p ∈ ptr, p ∈ s.owned then
      some { s with served := ctx.ipmFree ptr s.served, owned := ptr.elim s.owned s.owned.erase }
    else none
  | .report text =>
    some { s with served := ctx.ipmReportError text s.served
                  complaints := s.complaints ++ errorOf text }

variable {ctx : Callbacks σ} {s s' : CallbackSys σ} {a : CallbackEvent}

structure ServedOk (ctx : Callbacks σ) (s : CallbackSys σ) : Prop where
  owed : owedAfter [] s.served.uses = some s.owned
  voiced : Voiced ctx none s.served.uses s.complaints

theorem ServedOk.serves {served : Served σ} {complaints : List Complaint} {owned : List Nat}
    (h : ServedOk ctx s) (hserves : Serves ctx s.served served complaints s.owned owned) :
    ServedOk ctx ⟨served, owned, s.complaints ++ complaints⟩ := by
  obtain ⟨uses, huses, howed, hvoiced⟩ := hserves
  constructor
  · rw [huses, owedAfter_append, h.owed]
    exact howed
  · rw [huses]
    exact h.voiced.append (hvoiced _ h.voiced.told)

theorem ServedOk.step (h : ServedOk ctx s) (hs : CallbackSys.step ctx s a = some s') :
    ServedOk ctx s' := by
  cases a with
  | alloc size =>
    obtain rfl := Option.some.inj hs
    exact h.serves (ipmAllocReal_serves s.owned rfl)
  | free ptr =>
    rw [CallbackSys.step] at hs
    split_ifs at hs with howned
    obtain rfl := Option.some.inj hs
    have hok := h.serves (ipmFree_serves howned)
    rw [List.append_nil] at hok
    exact hok
  | report text =>
    obtain rfl := Option.some.inj hs
    exact h.serves (ipmReportError_serves s.owned text)

/-- **The callbacks are used as they should be**, in every run and whatever they answer: a pointer is freed
only if it is owed, what is owed is what the library owns, and every complaint has been said once, in
order, if there is a callback to say it to: an error as it is, unless the allocation for its text has just
failed. -/
theorem served_of_reach {user : σ} (hr : Reach (step ctx) (fun _ _ => True) (init user) s) :
    owedAfter [] s.served.uses = some s.owned ∧
      List.Forall₂ (fun c said => c.SaidBy said) (if ctx.report.isNone then [] else s.complaints)
        (messages none s.served.uses) := by
  have hinit : ServedOk ctx (init user) := by
    refine ⟨rfl, ?_, fun _ => rfl⟩
    show List.Forall₂ _ (ctx.Complains []) []
    rw [complains_nil]
    exact .nil
  have hok : ServedOk ctx s := hr.invariant hinit fun _ _ _ h _ hs => h.step hs
  exact ⟨hok.owed, hok.voiced.said⟩

/-- A user with little memory, who counts the allocations. -/
def small : Callbacks Nat where
  report := some fun _ n => n
  alloc size n := if size ≤ 16 then (some n, n + 1) else (none, n)
  free _ n := n

/-- An error there is memory for, one there is not, and an allocation there is not. -/
def outOfMemory : List CallbackEvent :=
  [.alloc 16, .report (some ['o', 'n', 'e']), .report (some (List.replicate 16 'x')), .alloc 64,
   .free (some 0), .report none]

theorem served_outOfMemory :
    ∃ s : CallbackSys Nat, s.owned = [] ∧ s.complaints.length = 3 ∧
      owedAfter [] s.served.uses = some s.owned ∧
      List.Forall₂ (fun c said => c.SaidBy said) s.complaints (messages none s.served.uses) := by
  have htrace : ∃ s, Reach (step small) (fun _ _ => True) (init 0) s ∧
      (s.owned = [] ∧ s.complaints.length = 3) :=
    exists_reach_of_trace (g := fun _ _ => true)
      (t := fun s => decide (s.owned = [] ∧ s.complaints.length = 3)) outOfMemory
      (fun _ _ _ => trivial) (fun _ h => of_decide_eq_true h) (by decide +kernel)
  obtain ⟨s, hr, howned, hlen⟩ := htrace
  exact ⟨s, howned, hlen, served_of_reach hr⟩

end CallbackSys

end Ipm
