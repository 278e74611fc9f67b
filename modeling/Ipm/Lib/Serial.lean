import Mathlib.Data.List.Sort
import Mathlib.Logic.Function.Basic

/-!
# Serial orders of a log

A log of reads and writes of one memory, each made in some section, in the order in which they
happened. Sections overlap in time, so the log jumps between them. When any two accesses that clash
are in the order of their sections, the log can be sorted by section and says the same: every read
still sees the value it saw, and the memory ends up as it did (`replay_serialize`).

Sorting is stable: within a section the accesses keep their order (`filter_serialize`).
-/

set_option autoImplicit false

namespace Lib

/-- One access to a memory. A read has the value it saw. -/
inductive Access (α β : Type*) where
  | read (x : α) (v : β)
  | write (x : α) (v : β)
  deriving DecidableEq, Repr

variable {α β τ κ : Type*}

namespace Access

def addr : Access α β → α
  | read x _ => x
  | write x _ => x

def writes : Access α β → Bool
  | read _ _ => false
  | write _ _ => true

/-- Two accesses whose order matters. -/
def Clash (a b : Access α β) : Prop :=
  a.addr = b.addr ∧ (a.writes = true ∨ b.writes = true)

/-- The memory after an access; `none` when a read is said to see what is not there. -/
def run [DecidableEq α] [DecidableEq β] (m : α → β) : Access α β → Option (α → β)
  | read x v => if m x = v then some m else none
  | write x v => some (Function.update m x v)

variable [DecidableEq α] [DecidableEq β] {m m' : α → β} {a b : Access α β} {x : α} {v : β}

@[simp] theorem run_write (m : α → β) (x : α) (v : β) :
    (write x v).run m = some (Function.update m x v) := rfl

theorem run_read (h : m x = v) : (read x v).run m = some m := if_pos h

theorem run_of_ne (hx : a.addr ≠ x) (h : a.run m = some m') : m' x = m x := by
  cases a with
  | read y w =>
    simp only [run, Option.ite_none_right_eq_some, Option.some.injEq] at h
    rw [h.2]
  | write y w =>
    obtain rfl := Option.some.inj h
    exact Function.update_of_ne (Ne.symm hx) _ _

/-- A read leaves the memory as it is. -/
theorem run_of_not_writes (ha : a.writes = false) (h : a.run m = some m') : m' = m := by
  cases a with
  | read y w =>
    simp only [run, Option.ite_none_right_eq_some, Option.some.injEq] at h
    exact h.2.symm
  | write y w => cases ha

/-- Accesses that do not clash can change places. -/
theorem run_comm (h : ¬ Clash a b) (m : α → β) :
    (a.run m).bind b.run = (b.run m).bind a.run := by
  cases a with
  | read x v =>
    cases b with
    | read y w =>
      simp only [run]
      split <;> split <;> simp [*]
    | write y w =>
      have hxy : x ≠ y := fun hxy => h ⟨hxy, .inr rfl⟩
      simp only [run, Option.bind_some, Function.update_of_ne hxy]
      split <;> rfl
  | write x v =>
    cases b with
    | read y w =>
      have hyx : y ≠ x := fun hyx => h ⟨hyx.symm, .inl rfl⟩
      simp only [run, Option.bind_some, Function.update_of_ne hyx]
      split <;> rfl
    | write y w =>
      have hxy : x ≠ y := fun hxy => h ⟨hxy, .inl rfl⟩
      simp only [run, Option.bind_some, Function.update_comm hxy]

end Access

/-! ## Logs -/

section Log

variable [DecidableEq α] [DecidableEq β] (acc : τ → Access α β)

/-- The memory after a log of accesses. -/
def replay (m : α → β) : List τ → Option (α → β)
  | [] => some m
  | e :: log => ((acc e).run m).bind fun m => replay m log

variable {acc} {m m' : α → β} {e d : τ} {l log : List τ} {x : α}

theorem replay_append (m : α → β) (l log : List τ) :
    replay acc m (l ++ log) = (replay acc m l).bind fun m => replay acc m log := by
  induction l generalizing m with
  | nil => rfl
  | cons e l ih => simp only [List.cons_append, replay, ih, Option.bind_assoc]

theorem replay_concat (h : replay acc m l = some m') :
    replay acc m (l ++ [e]) = (acc e).run m' := by
  rw [replay_append, h, Option.bind_some]
  exact Option.bind_fun_some _

/-- A byte that nothing in the log writes keeps its value. -/
theorem replay_of_forall_not_writes
    (hx : ∀ e ∈ log, (acc e).addr = x → (acc e).writes = false)
    (h : replay acc m log = some m') : m' x = m x := by
  induction log generalizing m with
  | nil => rw [← Option.some.inj h]
  | cons e log ih =>
    obtain ⟨m₁, he, hlog⟩ := Option.bind_eq_some_iff.mp h
    rw [ih (fun d hd => hx d (List.mem_cons_of_mem e hd)) hlog]
    by_cases hex : (acc e).addr = x
    · rw [Access.run_of_not_writes (hx e List.mem_cons_self hex) he]
    · exact Access.run_of_ne hex he

theorem replay_swap (h : ¬ (acc e).Clash (acc d)) (m : α → β) (log : List τ) :
    replay acc m (e :: d :: log) = replay acc m (d :: e :: log) := by
  have hcomm := Access.run_comm h m
  simp only [replay, ← Option.bind_assoc]
  rw [hcomm]

end Log

section Serialize

variable [LinearOrder κ] (key : τ → κ) {acc : τ → Access α β}
variable {m m' : α → β} {e : τ} {l log : List τ}

/-- Clashing accesses are in the order of their sections. -/
def SectionOrder (acc : τ → Access α β) (log : List τ) : Prop :=
  log.Pairwise fun e d => (acc e).Clash (acc d) → key e ≤ key d

/-- The log, section by section. -/
def serialize (log : List τ) : List τ := log.insertionSort fun e d => key e ≤ key d

variable {key}

theorem SectionOrder.concat (h : SectionOrder key acc log)
    (he : ∀ d ∈ log, (acc d).Clash (acc e) → key d ≤ key e) : SectionOrder key acc (log ++ [e]) :=
  List.pairwise_append.mpr ⟨h, List.pairwise_singleton _ _, fun d hd _ hmem => by
    rw [List.mem_singleton.mp hmem]
    exact he d hd⟩

theorem serialize_perm (log : List τ) : (serialize key log).Perm log :=
  List.perm_insertionSort _ log

/-- Sections follow one another. -/
theorem serialize_pairwise (log : List τ) :
    (serialize key log).Pairwise fun e d => key e ≤ key d := by
  have htotal : ∀ e d : τ, key e ≤ key d ∨ key d ≤ key e := fun e d => le_total _ _
  have : Std.Total fun e d : τ => key e ≤ key d := ⟨htotal⟩
  have : IsTrans τ fun e d => key e ≤ key d := ⟨fun _ _ _ => le_trans⟩
  exact List.pairwise_insertionSort _ log

theorem filter_orderedInsert (k : κ) (e : τ) (l : List τ) :
    ((l.orderedInsert (fun e d => key e ≤ key d) e).filter fun d => key d = k) =
      (e :: l).filter fun d => key d = k := by
  induction l with
  | nil => rfl
  | cons d l ih =>
    rw [List.orderedInsert_cons]
    split
    · rfl
    · rename_i hle
      -- `e` is put behind `d`, which is not of the same section
      rw [List.filter_cons, ih]
      by_cases hd : key d = k
      · have he : key e ≠ k := fun he => hle (he.trans hd.symm).le
        simp [hd, he]
      · simp [List.filter_cons, hd]

/-- Within a section nothing changes places. -/
theorem filter_serialize (k : κ) (log : List τ) :
    ((serialize key log).filter fun e => key e = k) = log.filter fun e => key e = k := by
  induction log with
  | nil => rfl
  | cons e log ih =>
    show ((List.orderedInsert _ e (serialize key log)).filter _) = _
    rw [filter_orderedInsert, List.filter_cons, List.filter_cons, ih]

variable [DecidableEq α] [DecidableEq β]

/-- Moving an access back to its section. -/
theorem replay_orderedInsert (m : α → β) (h : ∀ d ∈ l, (acc e).Clash (acc d) → key e ≤ key d) :
    replay acc m (l.orderedInsert (fun e d => key e ≤ key d) e) = replay acc m (e :: l) := by
  induction l generalizing m with
  | nil => rfl
  | cons d l ih =>
    rw [List.orderedInsert_cons]
    split
    · rfl
    · rename_i hle
      have hrest : ∀ c ∈ l, (acc e).Clash (acc c) → key e ≤ key c := fun c hc =>
        h c (List.mem_cons_of_mem d hc)
      rw [replay_swap fun hclash => hle (h d List.mem_cons_self hclash)]
      simp only [replay]
      exact Option.bind_congr fun m₁ _ => ih m₁ hrest

/-- **A log in order can be read section by section.** -/
theorem replay_serialize (m : α → β) (h : SectionOrder key acc log) :
    replay acc m (serialize key log) = replay acc m log := by
  induction log generalizing m with
  | nil => rfl
  | cons e log ih =>
    obtain ⟨he, hlog⟩ := List.pairwise_cons.mp h
    show replay acc m (List.orderedInsert _ e (serialize key log)) = _
    rw [replay_orderedInsert m fun d hd => he d ((serialize_perm log).mem_iff.mp hd)]
    simp only [replay]
    exact Option.bind_congr fun m₁ _ => ih m₁ hlog

end Serialize

end Lib
