import Mathlib.Data.Multiset.MapFold
import Ipm.Lib.LockTable

/-!
# Readers and writers

A lock that any number of owners may share as long as none of them writes, as a table of held locks:
entries of different owners conflict when one of them is for writing. One owner may have several.

A table without conflicts is either one owner's, or has readers only.
-/

set_option autoImplicit false

namespace Lib

variable {η : Type*}

/-- One of those who have the lock. -/
structure Holder (η : Type*) where
  owner : η
  writes : Bool

def Holder.Excludes (a b : Holder η) : Prop := a.owner ≠ b.owner ∧ (a.writes = true ∨ b.writes = true)

variable {M : Multiset (Holder η)}

/-- **What a readers-writer lock comes to**: one owner, or readers. -/
theorem compatible_excludes_iff : Compatible Holder.Excludes M ↔
    (∀ a ∈ M, ∀ b ∈ M, a.owner = b.owner) ∨ ∀ a ∈ M, a.writes = false := by
  constructor
  · intro h
    by_cases hone : ∀ a ∈ M, ∀ b ∈ M, a.owner = b.owner
    · exact .inl hone
    · right
      intro c hc
      rw [← Bool.not_eq_true]
      intro hwrites
      -- whoever writes is the only owner
      refine hone fun a ha b hb => ?_
      have hall : ∀ a ∈ M, a.owner = c.owner := fun a ha => by
        by_contra hne
        exact h a ha c hc ⟨hne, .inr hwrites⟩
      exact (hall a ha).trans (hall b hb).symm
  · rintro (hone | hread) a ha b hb ⟨hne, hwrites⟩
    · exact hne (hone a ha b hb)
    · rcases hwrites with hw | hw
      · exact absurd hw (Bool.eq_false_iff.mp (hread a ha))
      · exact absurd hw (Bool.eq_false_iff.mp (hread b hb))

/-- A step of one table as a step of another, where the conflicts of the second are conflicts of the
first. -/
theorem TableStep.map {α β : Type*} {conflict : α → α → Prop} {conflict' : β → β → Prop} {f : α → β}
    {M N : Multiset α} (hs : TableStep conflict M N)
    (hf : ∀ a ∈ N, ∀ b ∈ N, conflict' (f a) (f b) → conflict a b) :
    TableStep conflict' (M.map f) (N.map f) := by
  cases hs with
  | grant c free =>
    rw [Multiset.map_cons]
    refine .grant _ fun e he hconf => ?_
    obtain ⟨d, hd, rfl⟩ := Multiset.mem_map.mp he
    exact free d hd (hf c (Multiset.mem_cons_self c M) d (Multiset.mem_cons_of_mem hd) hconf)
  | shrink h => exact .shrink (Multiset.map_le_map h)

end Lib
