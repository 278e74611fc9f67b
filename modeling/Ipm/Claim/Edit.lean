import Ipm.Claim.List

/-!
# What the two list edits really do

`claim_add_to_list` and `claim_remove_from_list` each shift the tail of the array by one slot, and
each shifts **one slot too few**. This file says exactly what is in use afterwards, for every
position, so that nothing above it has to look at `memmove` again:

* `claimAddToList_append` — when no listed offset exceeds the new one there is nothing to shift,
  and the claim is appended;
* `claimRemoveFromList_found` — removing the first entry with the given id leaves `dropAt`, whose
  entries are `entries_dropAt`: right when the removed entry is the last one, and otherwise the
  last entry is gone and its neighbour is there twice.
-/

set_option autoImplicit false

namespace Ipm

open Lib

/-! ## The list in use -/

theorem ClaimList.length_entries (l : ClaimList) : l.entries.length = l.count := length_window _ _

theorem ClaimList.mem_entries {l : ClaimList} {c : MemoryClaim} :
    c ∈ l.entries ↔ ∃ i < l.count, l.claims i = c := mem_window

/-- Slot `i` of a list whose entries are `pre ++ c :: rest`. -/
theorem ClaimList.claims_at {l : ClaimList} {pre rest : List MemoryClaim} {c : MemoryClaim}
    (h : l.entries = pre ++ c :: rest) : l.claims pre.length = c := by
  have hslot := (window_eq_iff.mp h).2 pre.length (by simp)
  simpa using hslot

theorem ClaimList.claims_before {l : ClaimList} {pre rest : List MemoryClaim}
    (h : l.entries = pre ++ rest) {i : Nat} (hi : i < pre.length) : l.claims i = pre[i] := by
  have hslot := (window_eq_iff.mp h).2 i (by simp; omega)
  simpa [List.getElem_append_left, hi] using hslot

/-- Cutting the entries at slot `i`. -/
theorem ClaimList.entries_cut {l : ClaimList} {i : Nat} (hi : i < l.count) :
    ∃ rest, l.entries = window l.claims i ++ l.claims i :: rest := by
  refine ⟨window (fun j => l.claims (i + (j + 1))) (l.count - i - 1), ?_⟩
  show window l.claims l.count = _
  conv_lhs => rw [show l.count = i + ((l.count - i - 1) + 1) by omega, window_add, window_succ']
  simp

/-! ## Insertion -/

/-- Where `claim_add_to_list` inserts: in front of the first claim with a greater offset. -/
def ClaimList.insertPos (l : ClaimList) (claim : MemoryClaim) : Nat :=
  scan (fun c => decide (c.offset > claim.offset)) l.claims 0 l.count

/-- The list `claim_add_to_list` leaves when it inserts at slot `p`. -/
def ClaimList.putAt (l : ClaimList) (p : Nat) (claim : MemoryClaim) : ClaimList :=
  { l with count := l.count + 1
           claims := Function.update (memmove l.claims (p + 1) p (l.count - p - 1)) p claim }

@[simp] theorem ClaimList.putAt_capacity (l : ClaimList) (p : Nat) (claim : MemoryClaim) :
    (l.putAt p claim).capacity = l.capacity := rfl
@[simp] theorem ClaimList.putAt_count (l : ClaimList) (p : Nat) (claim : MemoryClaim) :
    (l.putAt p claim).count = l.count + 1 := rfl

theorem ClaimList.insertPos_le (l : ClaimList) (claim : MemoryClaim) :
    l.insertPos claim ≤ l.count := by
  have hle := scan_le (fun c => decide (c.offset > claim.offset)) l.claims 0 l.count
  rwa [Nat.zero_add] at hle

/-- The insertion runs to the end of the list exactly when no listed offset is greater. -/
theorem ClaimList.insertPos_eq_count_iff {l : ClaimList} {claim : MemoryClaim} :
    l.insertPos claim = l.count ↔ ∀ e ∈ l.entries, e.offset ≤ claim.offset := by
  rw [insertPos, scan_eq_end_iff]
  simp [entries, UInt64.not_lt]

/-- **An insertion below capacity** always returns. -/
theorem claimAddToList_room {b : Build} {l : ClaimList} {claim : MemoryClaim}
    (hcount : l.count < l.capacity) (hsize : l.count + 1 < 2 ^ 64) :
    claimAddToList b claim l = .ret .success (l.putAt (l.insertPos claim) claim) := by
  have hinc : (l.count + 1) % 2 ^ 64 = l.count + 1 := Nat.mod_eq_of_lt hsize
  unfold claimAddToList
  rw [Build.check_pos (.inr (by simpa using hcount)), if_neg (by omega),
    Build.check_pos (.inr (by simpa [ClaimList.incCount] using hcount))]
  simp only [ClaimList.incCount, hinc, ClaimList.putAt, ClaimList.insertPos]
  by_cases hend : l.insertPos claim = l.count
  · -- nothing behind the place: no slot moves
    rw [ClaimList.insertPos] at hend
    have hn : l.count - l.count - 1 = 0 := by omega
    rw [hend, hn, memmove_none, if_neg (by simp)]
  · rw [ClaimList.insertPos] at hend
    rw [if_pos hend]

theorem claimAddToList_putAt {b : Build} {l : ClaimList} {claim : MemoryClaim}
    (hcount : l.count < l.capacity) (hcap : l.capacity < 2 ^ 31) :
    claimAddToList b claim l = .ret .success (l.putAt (l.insertPos claim) claim) :=
  claimAddToList_room hcount (by omega)

/-- The list after `claim` has been put in the slot behind the last one in use. -/
def ClaimList.push (l : ClaimList) (claim : MemoryClaim) : ClaimList :=
  { l with count := l.count + 1, claims := Function.update l.claims l.count claim }

theorem ClaimList.putAt_count_eq_push (l : ClaimList) (claim : MemoryClaim) :
    l.putAt l.count claim = l.push claim := by
  have hn : l.count - l.count - 1 = 0 := by omega
  rw [putAt, hn, memmove_none, push]

theorem ClaimList.entries_push (l : ClaimList) (claim : MemoryClaim) :
    (l.push claim).entries = l.entries ++ [claim] := by
  show window (Function.update l.claims l.count claim) (l.count + 1) = _
  rw [window_succ, Function.update_self]
  congr 1
  exact window_congr fun i hi => Function.update_of_ne (Nat.ne_of_lt hi) _ _

@[simp] theorem ClaimList.push_capacity (l : ClaimList) (claim : MemoryClaim) :
    (l.push claim).capacity = l.capacity := rfl
@[simp] theorem ClaimList.push_count (l : ClaimList) (claim : MemoryClaim) :
    (l.push claim).count = l.count + 1 := rfl

/-- **Appending is the case that works.** With no listed offset past the claim's own the search
runs through and no slot has to move. -/
theorem claimAddToList_append {b : Build} {l : ClaimList} {claim : MemoryClaim}
    (hcount : l.count < l.capacity) (hcap : l.capacity < 2 ^ 31)
    (hlast : ∀ e ∈ l.entries, e.offset ≤ claim.offset) :
    claimAddToList b claim l = .ret .success (l.push claim) := by
  rw [claimAddToList_putAt hcount hcap, ClaimList.insertPos_eq_count_iff.mpr hlast,
    ClaimList.putAt_count_eq_push]

/-- Wherever the claim goes, an insertion below capacity returns and takes one more slot. -/
theorem claimAddToList_count {b : Build} {l : ClaimList} {claim : MemoryClaim}
    (hcount : l.count < l.capacity) (hcap : l.capacity < 2 ^ 31) :
    ∃ l', claimAddToList b claim l = .ret .success l' ∧ l'.count = l.count + 1 ∧
      l'.capacity = l.capacity :=
  ⟨_, claimAddToList_putAt hcount hcap, rfl, rfl⟩

/-- **The entries after an insertion in front of the last one**: the last one is gone, and slot
`count` has come into use with whatever was there. -/
theorem ClaimList.entries_putAt {l : ClaimList} {p : Nat} {claim : MemoryClaim} (hp : p < l.count) :
    (l.putAt p claim).entries = window l.claims p ++
      claim :: (window (fun i => l.claims (p + i)) (l.count - p - 1) ++ [l.claims l.count]) := by
  obtain ⟨k, hk⟩ : ∃ k, l.count = p + (k + 1) := ⟨l.count - p - 1, by omega⟩
  have hn : l.count - p - 1 = k := by omega
  show window (Function.update (memmove l.claims (p + 1) p (l.count - p - 1)) p claim)
    (l.count + 1) = _
  rw [hn, show l.count + 1 = p + (k + 1 + 1) by omega, window_memmove_up, ← hk]

/-! ## Removal -/

theorem ClaimList.decCount_count (l : ClaimList) :
    l.decCount.count = (l.count + 2 ^ 64 - 1) % 2 ^ 64 := by
  rw [decCount]

theorem ClaimList.decCount_capacity (l : ClaimList) : l.decCount.capacity = l.capacity := by
  rw [decCount]

theorem ClaimList.decCount_claims (l : ClaimList) : l.decCount.claims = l.claims := by
  rw [decCount]

/-- The list `claim_remove_from_list` leaves when it finds its id in slot `p`. -/
def ClaimList.dropAt (l : ClaimList) (p : Nat) : ClaimList :=
  { l with count := l.count - 1, claims := memmove l.claims p (p + 1) (l.count - 2 - p) }

@[simp] theorem ClaimList.dropAt_capacity (l : ClaimList) (p : Nat) :
    (l.dropAt p).capacity = l.capacity := rfl
@[simp] theorem ClaimList.dropAt_count (l : ClaimList) (p : Nat) :
    (l.dropAt p).count = l.count - 1 := rfl

/-- **A removal that finds its id** in slot `p`, on a list that passes the assertion. -/
theorem claimRemoveFromList_found {b : Build} {l : ClaimList} {id : UInt64} {p : Nat}
    (hle : l.count ≤ l.capacity) (hcap : l.capacity < 2 ^ 31)
    (hassert : b.ndebug = true ∨ l.count < l.capacity) (hp : p < l.count)
    (hid : (l.claims p).claimId = id) (hfirst : ∀ i < p, (l.claims i).claimId ≠ id) :
    claimRemoveFromList b id l = .ret .success (l.dropAt p) := by
  have hc32 : l.count % 2 ^ 32 = l.count := Nat.mod_eq_of_lt (by omega)
  have hdec : (l.count + 2 ^ 64 - 1) % 2 ^ 64 = l.count - 1 := by omega
  have hscan : scan (fun c => decide (id = c.claimId)) l.claims 0 l.count = p :=
    scan_eq hp (by simp [hid]) fun i hi => by simpa using Ne.symm (hfirst i hi)
  have hcheck : b.ndebug = true ∨ decide (l.count < l.capacity ∧ l.count > 0) = true := by
    rcases hassert with h | h
    · exact .inl h
    · exact .inr (by simp; omega)
  simp only [claimRemoveFromList, ClaimList.decCount, hc32, hdec, hscan]
  rw [Build.check_pos hcheck, if_neg (by omega), if_neg (by omega)]
  by_cases hlast : p + 1 = l.count
  · -- the last entry: no slot moves
    have hn : l.count - 2 - p = 0 := by omega
    rw [if_neg (by omega), ClaimList.dropAt, hn, memmove_none]
  · have hn : (l.count - 1 + 2 ^ 32 - p + 2 ^ 32 - 1) % 2 ^ 32 = l.count - 2 - p := by omega
    rw [if_pos hlast, hn, ClaimList.move, if_pos (by dsimp only; omega)]
    rfl

theorem ClaimList.move_shared (l : ClaimList) (dst src n : Nat) (res : IpmResult) :
    ((l.move dst src n).andThen fun _ l => .ret res l).shared.count = l.count ∧
      ((l.move dst src n).andThen fun _ l => .ret res l).shared.capacity = l.capacity := by
  unfold ClaimList.move
  split <;> exact ⟨rfl, rfl⟩

/-- However a removal ends, the count has gone down, past zero if need be. -/
theorem claimRemoveFromList_decCount (b : Build) (id : UInt64) (l : ClaimList) :
    (claimRemoveFromList b id l).shared.count = (l.count + 2 ^ 64 - 1) % 2 ^ 64 ∧
      (claimRemoveFromList b id l).shared.capacity = l.capacity := by
  have hlist : l.decCount.count = (l.count + 2 ^ 64 - 1) % 2 ^ 64 ∧
      l.decCount.capacity = l.capacity := ⟨l.decCount_count, l.decCount_capacity⟩
  simp only [claimRemoveFromList, Build.check]
  generalize l.decCount = l' at hlist ⊢
  generalize (l.count + 2 ^ 64 - 1) % 2 ^ 64 = n at hlist ⊢
  split
  · split
    · exact hlist
    split
    · exact hlist
    split
    · -- the shift length does not matter here
      generalize (l.count % 2 ^ 32 - 1 + 2 ^ 32 - _ + 2 ^ 32 - 1) % 2 ^ 32 = k
      obtain ⟨hc, hcap⟩ := l'.move_shared _ _ k .success
      exact ⟨hc.trans hlist.1, hcap.trans hlist.2⟩
    · exact hlist
  · exact hlist

/-- However a removal from a non-empty list ends, it has cost the list one slot. -/
theorem claimRemoveFromList_shared (b : Build) (id : UInt64) {l : ClaimList}
    (hpos : 0 < l.count) (hcount : l.count < 2 ^ 31) :
    (claimRemoveFromList b id l).shared.count = l.count - 1 ∧
      (claimRemoveFromList b id l).shared.capacity = l.capacity := by
  have hdec : (l.count + 2 ^ 64 - 1) % 2 ^ 64 = l.count - 1 := by omega
  obtain ⟨hc, hcap⟩ := claimRemoveFromList_decCount b id l
  exact ⟨hc.trans hdec, hcap⟩

/-- A removal ends: it has no loop to stay in but the scan. -/
theorem claimRemoveFromList_ne_spin (b : Build) (id : UInt64) (l l' : ClaimList) :
    claimRemoveFromList b id l ≠ .stop .spin l' := by
  simp only [claimRemoveFromList, Build.check, ClaimList.move]
  generalize l.decCount = list
  split
  · split
    · intro h
      cases h
    split
    · intro h
      cases h
    split
    · generalize (l.count % 2 ^ 32 - 1 + 2 ^ 32 - _ + 2 ^ 32 - 1) % 2 ^ 32 = n
      split
      · intro h
        cases h
      · intro h
        cases h
    · intro h
      cases h
  · intro h
    cases h

/-- What is left of `o :: rest` when `o` is removed and one slot too few is shifted. -/
def shortTail (o : MemoryClaim) (rest : List MemoryClaim) : List MemoryClaim :=
  if rest = [] then [] else rest.dropLast ++ [(o :: rest.dropLast).getLast (by simp)]

@[simp] theorem shortTail_nil (o : MemoryClaim) : shortTail o [] = [] := rfl

@[simp] theorem shortTail_singleton (o y : MemoryClaim) : shortTail o [y] = [o] := rfl

/-- From the second entry behind it on, the removed entry does leave; the last one goes with it
and its neighbour is duplicated. -/
theorem shortTail_append (o z y : MemoryClaim) (mid : List MemoryClaim) :
    shortTail o (mid ++ [z, y]) = mid ++ [z, z] := by
  have hdrop : (mid ++ [z, y]).dropLast = mid ++ [z] := by
    rw [List.dropLast_append_of_ne_nil (by simp)]; rfl
  have hlast : (o :: (mid ++ [z])).getLast (by simp) = z := by
    rw [List.getLast_cons (by simp), List.getLast_append_singleton]
  simp only [shortTail, hdrop, hlast]
  simp

/-- **The entries after a removal**, for every position. -/
theorem ClaimList.entries_dropAt {l : ClaimList} {pre rest : List MemoryClaim} {o : MemoryClaim}
    (h : l.entries = pre ++ o :: rest) :
    (l.dropAt pre.length).entries = pre ++ shortTail o rest := by
  obtain ⟨hcount, hpre, htail⟩ := window_eq_append h
  rw [List.length_cons, window_succ'] at htail
  obtain ⟨ho, hrest⟩ := List.cons.inj htail
  rw [List.length_cons] at hcount
  show window (memmove l.claims pre.length (pre.length + 1) (l.count - 2 - pre.length))
    (l.count - 1) = _
  cases hk : rest.length with
  | zero =>
    -- the removed entry is the last one: no slot moves
    obtain rfl := List.eq_nil_of_length_eq_zero hk
    have hn : l.count - 2 - pre.length = 0 := by omega
    rw [hn, memmove_none, show l.count - 1 = pre.length by omega, hpre]
    simp
  | succ k =>
    have hlen : l.count - 2 - pre.length = k := by omega
    have hrestw : rest = window (fun i => l.claims (pre.length + (i + 1))) k ++
        [l.claims (pre.length + (k + 1))] := by
      rw [← hrest, hk, window_succ]
    have hlast : memmove l.claims pre.length (pre.length + 1) k (pre.length + k) =
        l.claims (pre.length + k) := if_neg (by omega)
    have hshort : shortTail o rest = window (fun i => l.claims (pre.length + (i + 1))) k ++
        [l.claims (pre.length + k)] := by
      rw [hrestw, shortTail, if_neg (by simp)]
      simp only [List.dropLast_concat]
      congr 2
      cases k with
      | zero => simp [← ho]
      | succ k => simp [window_succ]
    rw [hlen, show l.count - 1 = pre.length + k + 1 by omega, window_succ, window_memmove_down,
      hlast, hpre, hshort, List.append_assoc]
    congr 2
    exact window_congr fun i _ => by congr 1; omega

end Ipm
