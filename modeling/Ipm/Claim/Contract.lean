import Ipm.Claim.Edit
import Ipm.Lib.SortedInsert

/-!
# What the two list edits are for, and when they do it

The array is kept in order of offsets: `claim_add_to_list` is meant to be a stable sorted insertion,
`claim_remove_from_list` the deletion of one entry. `Claim/Edit.lean` says what they do instead, for
every position; here that is compared with what they are for, and each comparison is an *iff*:

* the insertion is right when the claim goes last, and otherwise only if the slot behind the list
  happens to hold a copy of the last entry;
* the deletion is right when the entry is the last one, and not compiled to abort on a full list.
-/

set_option autoImplicit false

namespace Ipm

open Lib

/-- In order of offsets. -/
abbrev OffsetSorted (E : List MemoryClaim) : Prop := E.Pairwise fun a c => a.offset ≤ c.offset

/-- The claim behind every entry whose offset is not greater. -/
abbrev insertByOffset (claim : MemoryClaim) (E : List MemoryClaim) : List MemoryClaim :=
  E.orderedInsert (fun a c => a.offset < c.offset) claim

theorem offsetSorted_insertByOffset {claim : MemoryClaim} {E : List MemoryClaim}
    (h : OffsetSorted E) : OffsetSorted (insertByOffset claim E) := by
  have hle : ∀ {F : List MemoryClaim}, OffsetSorted F ↔ F.Pairwise fun a c => ¬ c.offset < a.offset := by
    intro F
    simp only [UInt64.not_lt]
  rw [hle] at h ⊢
  apply pairwise_orderedInsert
  · intro x y z hxy hyz
    exact UInt64.lt_trans hxy hyz
  · intro x
    exact UInt64.lt_irrefl x.offset
  · exact h

/-- `claim_add_to_list` as a stable sorted insertion. -/
structure SortedInsertion (b : Build) (claim : MemoryClaim) (l l' : ClaimList) : Prop where
  returns : claimAddToList b claim l = .ret .success l'
  count : l'.count = l.count + 1
  entries : l'.entries = insertByOffset claim l.entries
  sorted : OffsetSorted l'.entries
  kept : ∀ e ∈ l.entries, e ∈ l'.entries

/-- The entries an insertion should leave, cut at the place the search finds. -/
theorem ClaimList.insertByOffset_entries (l : ClaimList) (claim : MemoryClaim) :
    insertByOffset claim l.entries = window l.claims (l.insertPos claim) ++
      claim :: window (fun i => l.claims (l.insertPos claim + i)) (l.count - l.insertPos claim) :=
  orderedInsert_window l.claims rfl

/-- The insertion leaves these entries exactly when it appends, or the slot behind the list is a copy
of the last entry. -/
theorem ClaimList.entries_putAt_eq_iff (l : ClaimList) (claim : MemoryClaim) :
    (l.putAt (l.insertPos claim) claim).entries = insertByOffset claim l.entries ↔
      (∀ e ∈ l.entries, e.offset ≤ claim.offset) ∨ l.claims l.count = l.claims (l.count - 1) := by
  rw [← insertPos_eq_count_iff, insertByOffset_entries]
  have hle := l.insertPos_le claim
  generalize l.insertPos claim = p at hle ⊢
  by_cases hend : p = l.count
  · subst hend
    rw [putAt_count_eq_push, entries_push]
    simp [ClaimList.entries]
  · -- behind the place there is at least one entry, and the last slot decides
    obtain ⟨k, hk⟩ : ∃ k, l.count = p + (k + 1) := ⟨l.count - p - 1, by omega⟩
    have hn : l.count - p - 1 = k := by omega
    have hwant : window (fun i => l.claims (p + i)) (l.count - p) =
        window (fun i => l.claims (p + i)) k ++ [l.claims (l.count - 1)] := by
      rw [show l.count - p = k + 1 by omega, window_succ, show l.count - 1 = p + k by omega]
    rw [entries_putAt (by omega), hwant, hn]
    simp [hend]

/-- **When `claim_add_to_list` is a stable sorted insertion.** -/
theorem claimAddToList_sorted_iff {b : Build} {l : ClaimList} (hcap : l.capacity < 2 ^ 31)
    (hcount : l.count < l.capacity) (hsorted : OffsetSorted l.entries) (claim : MemoryClaim) :
    (∃ l', SortedInsertion b claim l l') ↔
      (∀ e ∈ l.entries, e.offset ≤ claim.offset) ∨ l.claims l.count = l.claims (l.count - 1) := by
  rw [← l.entries_putAt_eq_iff claim]
  constructor
  · rintro ⟨l', h⟩
    have hret := h.returns
    rw [claimAddToList_putAt hcount hcap] at hret
    cases hret
    exact h.entries
  · intro hentries
    refine ⟨_, claimAddToList_putAt hcount hcap, rfl, hentries, ?_, ?_⟩
    · rw [hentries]
      exact offsetSorted_insertByOffset hsorted
    · intro e he
      rw [hentries]
      exact (List.perm_orderedInsert _ _ _).mem_iff.mpr (List.mem_cons_of_mem claim he)

/-- A list of these claims in a fresh page: the slots behind them are zero. -/
def ClaimList.ofEntries (capacity : Nat) (claims : List MemoryClaim) : ClaimList :=
  { zeroList with
    count := claims.length
    capacity := capacity
    claims := fun i => claims.getD i (zeroList.claims i) }

/-- Claims `[10, 20)` and `[30, 40)` of handle 1. -/
def twoClaims : ClaimList := .ofEntries pageCapacity
  [⟨0, 1, .readWrite, 10, 10⟩, ⟨1, 1, .readWrite, 30, 10⟩]

/-- Behind both of them the insertion is right. -/
theorem claimAddToList_sorted_behind :
    ∃ l', SortedInsertion ⟨false⟩ ⟨2, 1, .readOnly, 50, 5⟩ twoClaims l' :=
  (claimAddToList_sorted_iff (by decide) (by decide) (by decide) _).mpr (.inl (by decide))

/-- Between them it is not: the claim on `[30, 40)` is lost. -/
theorem claimAddToList_between_not_sorted :
    twoClaims.capacity < 2 ^ 31 ∧ twoClaims.count < twoClaims.capacity ∧
      OffsetSorted twoClaims.entries ∧
      ¬ ∃ l', SortedInsertion ⟨false⟩ ⟨2, 1, .readOnly, 20, 5⟩ twoClaims l' := by
  refine ⟨by decide, by decide, by decide, ?_⟩
  rintro ⟨l', h⟩
  have hkept := h.kept ⟨1, 1, .readWrite, 30, 10⟩ (by decide)
  have hret := h.returns
  rw [claimAddToList_putAt (by decide) (by decide)] at hret
  cases hret
  exact absurd hkept (by decide)

/-! ## Deletion -/

/-- `claim_remove_from_list` of the entry in slot `p` as its deletion. -/
structure Deletion (b : Build) (p : Nat) (l l' : ClaimList) : Prop where
  returns : claimRemoveFromList b (l.claims p).claimId l = .ret .success l'
  count : l'.count = l.count - 1
  entries : l'.entries = l.entries.eraseIdx p

/-- One slot too few is shifted unless there is none to shift: two different entries at the end. -/
theorem shortTail_eq_iff {o : MemoryClaim} {rest : List MemoryClaim}
    (hne : (o :: rest).Pairwise fun a c => a.claimId ≠ c.claimId) :
    shortTail o rest = rest ↔ rest = [] := by
  constructor
  · intro h
    rcases List.eq_nil_or_concat rest with rfl | ⟨front, y, rfl⟩
    · rfl
    rw [List.concat_eq_append] at h hne
    rcases List.eq_nil_or_concat front with rfl | ⟨mid, z, rfl⟩
    · -- the removed entry stays in the place of the last one
      rw [List.nil_append, shortTail_singleton] at h
      cases h
      exact absurd rfl ((List.pairwise_cons.mp hne).1 o (by simp))
    · rw [List.concat_eq_append, List.append_assoc, List.singleton_append] at h hne
      rw [shortTail_append] at h
      have hzy : z = y := by simpa using h
      have htail := (List.pairwise_append.mp (List.pairwise_cons.mp hne).2).2.1
      simp [hzy] at htail
  · rintro rfl
    rfl

/-- The first entry with its id is the entry itself. -/
theorem claimRemoveFromList_distinct {b : Build} {l : ClaimList} {p : Nat}
    (hle : l.count ≤ l.capacity) (hcap : l.capacity < 2 ^ 31)
    (hassert : b.ndebug = true ∨ l.count < l.capacity)
    (hids : l.entries.Pairwise fun a c => a.claimId ≠ c.claimId) (hp : p < l.count) :
    claimRemoveFromList b (l.claims p).claimId l = .ret .success (l.dropAt p) := by
  apply claimRemoveFromList_found hle hcap hassert hp rfl
  intro i hi
  have hlt : p < l.entries.length := by rw [l.length_entries]; exact hp
  have hdiff := List.pairwise_iff_getElem.mp hids i p (by omega) hlt hi
  simpa [ClaimList.entries, getElem_window] using hdiff

/-- On a full list the assertion fails. -/
theorem claimRemoveFromList_full {l : ClaimList} {id : UInt64} (hfull : l.count = l.capacity)
    (hcap : l.capacity < 2 ^ 31) :
    claimRemoveFromList ⟨false⟩ id l = .stop .assertion l.decCount := by
  have hc32 : l.count % 2 ^ 32 = l.count := Nat.mod_eq_of_lt (by omega)
  have hcheck : decide (l.count < l.decCount.capacity ∧ l.count > 0) = false := by
    rw [ClaimList.decCount_capacity, ← hfull]
    simp
  simp only [claimRemoveFromList, hc32, hcheck, Build.check, Bool.or_self, Bool.false_eq_true,
    if_false]

/-- **When `claim_remove_from_list` deletes exactly the named claim.** -/
theorem claimRemoveFromList_deletes_iff {b : Build} {l : ClaimList} {p : Nat}
    (hcap : l.capacity < 2 ^ 31) (hle : l.count ≤ l.capacity) (hp : p < l.count)
    (hids : l.entries.Pairwise fun a c => a.claimId ≠ c.claimId) :
    (∃ l', Deletion b p l l') ↔
      p + 1 = l.count ∧ (b.ndebug = true ∨ l.count < l.capacity) := by
  obtain ⟨rest, hcut⟩ := ClaimList.entries_cut hp
  have hlen : (window l.claims p).length = p := length_window _ _
  have hwant : l.entries.eraseIdx p = window l.claims p ++ rest := by
    rw [hcut, List.eraseIdx_append_of_length_le (by omega), hlen, Nat.sub_self,
      List.eraseIdx_cons_zero]
  have hleft : (l.dropAt p).entries = window l.claims p ++ shortTail (l.claims p) rest := by
    have hdrop := ClaimList.entries_dropAt hcut
    rwa [hlen] at hdrop
  have hrest : rest = [] ↔ p + 1 = l.count := by
    have hcount := congrArg List.length hcut
    rw [l.length_entries, List.length_append, hlen, List.length_cons] at hcount
    rw [← List.length_eq_zero_iff]
    omega
  have hdistinct : (l.claims p :: rest).Pairwise fun a c => a.claimId ≠ c.claimId := by
    rw [hcut] at hids
    exact (List.pairwise_append.mp hids).2.1
  constructor
  · rintro ⟨l', h⟩
    have hassert : b.ndebug = true ∨ l.count < l.capacity := by
      rcases hb : b.ndebug with - | -
      · right
        rcases Nat.lt_or_eq_of_le hle with hlt | hfull
        · exact hlt
        · obtain rfl : b = ⟨false⟩ := by cases b; simpa using hb
          have hret := h.returns
          rw [claimRemoveFromList_full hfull hcap] at hret
          cases hret
      · exact .inl rfl
    refine ⟨?_, hassert⟩
    have hret := h.returns
    rw [claimRemoveFromList_distinct hle hcap hassert hids hp] at hret
    cases hret
    have hshort : shortTail (l.claims p) rest = rest := by
      have hentries := h.entries
      rw [hleft, hwant] at hentries
      exact List.append_cancel_left hentries
    exact hrest.mp ((shortTail_eq_iff hdistinct).mp hshort)
  · rintro ⟨hlast, hassert⟩
    refine ⟨_, claimRemoveFromList_distinct hle hcap hassert hids hp, rfl, ?_⟩
    rw [hleft, hwant, (shortTail_eq_iff hdistinct).mpr (hrest.mpr hlast)]

/-- The last of two claims is deleted. -/
theorem claimRemoveFromList_deletes_last : ∃ l', Deletion ⟨false⟩ 1 twoClaims l' :=
  (claimRemoveFromList_deletes_iff (by decide) (by decide) (by decide) (by decide)).mpr
    ⟨by decide, .inr (by decide)⟩

/-- Removing the first of two claims leaves it in the list, and the other one goes. -/
theorem claimRemoveFromList_first_not_deletes :
    twoClaims.capacity < 2 ^ 31 ∧ 0 < twoClaims.count ∧ twoClaims.count ≤ twoClaims.capacity ∧
      (twoClaims.entries.Pairwise fun a c => a.claimId ≠ c.claimId) ∧
      ¬ ∃ l', Deletion ⟨false⟩ 0 twoClaims l' := by
  refine ⟨by decide, by decide, by decide, by decide, ?_⟩
  rintro ⟨l', h⟩
  have hentries := h.entries
  have hret := h.returns
  rw [claimRemoveFromList_distinct (by decide) (by decide) (.inr (by decide)) (by decide)
    (by decide)] at hret
  cases hret
  exact absurd hentries (by decide)

end Ipm
