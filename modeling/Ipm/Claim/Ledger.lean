import Ipm.Claim.System
import Ipm.Claim.Purge
import Ipm.Lib.LockTable

/-!
# The claim list as a ledger, and mutual exclusion

Two properties of whole runs, one resting on the other. `Exact` says that the array holds exactly
the claims callers were granted and have not given back; `MutualExclusion` says that no two
different handles hold overlapping claims of which one writes.

Neither holds of every run. The two list edits shift one slot too few, so an insertion in front of
a listed claim drops the last one, and a removal in front of the last one drops *it*; and a failing
condition wait reports a claim that was never listed. `Clean` is the condition on a step, read off
the state before it, that none of this is reached:

* a claim about to be admitted starts at or past every listed one;
* the released id is the last entry's and no other's;
* a purge finds the handle's entries as an `OwnTail`;
* nothing is removed from a full list by code compiled with assertions; and no wait fails.

`LedgerOk.step` is the refinement: a clean step of the array is a step of the abstract lock table
(`Lib.TableStep`) on the ledger, and leaves the two equal.
-/

set_option autoImplicit false

namespace Ipm

open Lib

namespace ClaimSys

/-- The array is an exact copy of the ledger: nothing lost, nothing doubled, nothing stale. -/
def Exact (s : ClaimSys) : Prop := s.list.entries.Perm s.granted

/-- No two handles hold overlapping claims of which at least one may write. -/
def MutualExclusion (s : ClaimSys) : Prop :=
  ∀ a ∈ s.granted, ∀ c ∈ s.granted, a.procId ≠ c.procId →
    (a.access = .readWrite ∨ c.access = .readWrite) → ¬ a.Overlaps c

/-- Removing an entry does not meet `assert(count < list->capacity && count > 0)` on a full list. -/
def Removable (b : Build) (s : ClaimSys) : Prop :=
  b.ndebug = true ∨ s.list.count < s.list.capacity

/-- The claim goes behind every listed one, if it is admitted now. -/
def Appends (s : ClaimSys) (claim : MemoryClaim) : Prop :=
  admits s.list claim = true → ∀ e ∈ s.list.entries, e.offset ≤ claim.offset

/-- A purge by `id` has nothing to remove, or only what it removes rightly. -/
def Purgeable (b : Build) (s : ClaimSys) (id : UInt64) : Prop :=
  (∀ e ∈ s.list.entries, e.procId ≠ id) ∨
    (s.Removable b ∧ IdsKeepProc s.list.entries ∧ OwnTail id s.list.entries)

/-- The step stays clear of the short shifts and of the false `IPM_RESULT_SUCCESS`. -/
def Clean (b : Build) (s : ClaimSys) : ClaimEvent → Prop
  | .claim h lock access offset count =>
    claimRegionCheck h access offset count = none → lock = .success →
      s.Appends (s.list.newClaim h access offset count)
  | .recheck i => ∀ claim, s.woken[i]? = some claim → s.Appends claim
  | .waitFails _ => False
  | .spurious _ => True
  | .signal _ => True
  | .releaseRegion _ lock claimId => lock = .success →
    s.Removable b ∧ ∃ pre c, s.list.entries = pre ++ [c] ∧ c.claimId = claimId ∧
      ∀ e ∈ pre, e.claimId ≠ claimId
  | .releaseAll h lock => lock = .success → s.Purgeable b h.accessId
  | .removeAll lock => lock = .success → s.list.entries = [] ∨ s.Removable b
  | .close h lock => lock = .success → s.Purgeable b h.accessId

end ClaimSys

/-! ## Admission -/

theorem admits_iff {l : ClaimList} {c : MemoryClaim} :
    admits l c = true ↔
      (∀ e ∈ l.entries, claimsConflict c e = false) ∧ l.count ≠ l.capacity := by
  unfold admits
  rw [Bool.and_eq_true, beq_iff_eq, bne_iff_ne, scan_eq_end_iff]
  rfl

namespace ClaimSys

variable {b : Build} {s s' : ClaimSys} {claim : MemoryClaim}

/-- What holds between any two steps of a clean run. -/
structure LedgerOk (s : ClaimSys) : Prop where
  exact : s.Exact
  le_capacity : s.list.count ≤ s.list.capacity
  capacity_lt : s.list.capacity < 2 ^ 31

/-- One turn of the admission loop: granted with one more slot taken, or asleep with the array as
it was. -/
theorem turn_cases (hle : s.list.count ≤ s.list.capacity) (hcap : s.list.capacity < 2 ^ 31)
    (hs : turn b claim s = some s') :
    (admits s.list claim = true ∧ ∃ l, claimAddToList b claim s.list = .ret .success l ∧
      l.count = s.list.count + 1 ∧ l.capacity = s.list.capacity ∧
      s' = { s with list := l, granted := claim :: s.granted }) ∨
    (admits s.list claim = false ∧ s' = { s with waiting := s.waiting ++ [claim] }) := by
  unfold turn claimRegionTurn at hs
  cases ha : admits s.list claim with
  | true =>
    have hne := (admits_iff.mp ha).2
    obtain ⟨l, hadd, hcount, hcap'⟩ :=
      claimAddToList_count (b := b) (show s.list.count < s.list.capacity by omega) hcap
    rw [if_pos ha, hadd] at hs
    exact .inl ⟨rfl, l, hadd, hcount, hcap', (Option.some.inj hs).symm⟩
  | false =>
    rw [if_neg (by simp [ha])] at hs
    exact .inr ⟨rfl, (Option.some.inj hs).symm⟩

/-- ... and a claim that goes last is granted at the end of the array. -/
theorem turn_cases_append (hle : s.list.count ≤ s.list.capacity) (hcap : s.list.capacity < 2 ^ 31)
    (happ : s.Appends claim) (hs : turn b claim s = some s') :
    (admits s.list claim = true ∧
      s' = { s with list := s.list.push claim, granted := claim :: s.granted }) ∨
    (admits s.list claim = false ∧ s' = { s with waiting := s.waiting ++ [claim] }) := by
  rcases turn_cases hle hcap hs with ⟨ha, l, hadd, -, -, rfl⟩ | h
  · have hne := (admits_iff.mp ha).2
    rw [claimAddToList_append (by omega) hcap (happ ha)] at hadd
    cases hadd
    exact .inl ⟨ha, rfl⟩
  · exact .inr h

/-- A clean purge leaves the other handles' entries, in the array and in the ledger alike. -/
theorem purge_cases {lock : IpmResult} {id : UInt64} (h : LedgerOk s)
    (hp : lock = .success → s.Purgeable b id) (hs : purge b lock id s = some s') :
    s' = s ∨ ∃ l, l.entries = others id s.list.entries ∧ l.capacity = s.list.capacity ∧
      s' = { s with list := l, granted := others id s.granted } := by
  unfold purge ipmMemoryReleaseAll at hs
  by_cases hlock : lock = .success
  · rw [if_neg (by simpa using hlock)] at hs
    have hlist : ∃ l, releaseAllLoop b id s.list.count 0 s.list = .ret () l ∧
        l.entries = others id s.list.entries ∧ l.capacity = s.list.capacity := by
      rcases hp hlock with hnone | ⟨hrem, hids, htail⟩
      · have hcount : s.list.count < 2 ^ 31 := lt_of_le_of_lt h.le_capacity h.capacity_lt
        exact ⟨s.list, releaseAllLoop_none hcount hnone _ _ (by omega),
          (others_eq_self hnone).symm, rfl⟩
      · exact releaseAllLoop_ownTail _ 0 s.list h.le_capacity h.capacity_lt hrem hids htail
          (by simp) (by omega)
    obtain ⟨l, hrun, hent, hcap⟩ := hlist
    rw [hrun] at hs
    exact .inr ⟨l, hent, hcap, (Option.some.inj hs).symm⟩
  · rw [if_pos hlock] at hs
    simp only [settle, if_neg hlock, Option.some.injEq] at hs
    exact .inl hs.symm

/-! ## A clean step is a step of the lock table -/

/-- The relation the lock table is about. -/
abbrev Conflicting (a c : MemoryClaim) : Prop := claimsConflict a c = true

theorem LedgerOk.mem_iff (h : LedgerOk s) {c : MemoryClaim} :
    c ∈ s.list.entries ↔ c ∈ s.granted := h.exact.mem_iff

theorem LedgerOk.turn (h : LedgerOk s) (happ : s.Appends claim)
    (hs : ClaimSys.turn b claim s = some s') :
    LedgerOk s' ∧ TableStep Conflicting (s.granted : Multiset MemoryClaim) s'.granted := by
  rcases turn_cases_append h.le_capacity h.capacity_lt happ hs with ⟨ha, rfl⟩ | ⟨-, rfl⟩
  · obtain ⟨hfree, hne⟩ := admits_iff.mp ha
    have hlt : s.list.count < s.list.capacity := lt_of_le_of_ne h.le_capacity hne
    refine ⟨⟨?_, hlt, h.capacity_lt⟩, ?_⟩
    · show (s.list.push claim).entries.Perm (claim :: s.granted)
      rw [ClaimList.entries_push]
      exact List.perm_append_comm.trans (h.exact.cons claim)
    · refine .grant claim fun e he hconf => ?_
      exact Bool.false_ne_true ((hfree e (h.mem_iff.mpr he)).symm.trans hconf)
  · exact ⟨⟨h.exact, h.le_capacity, h.capacity_lt⟩, .refl _⟩

theorem LedgerOk.purge {lock : IpmResult} {id : UInt64} (h : LedgerOk s)
    (hp : lock = .success → s.Purgeable b id) (hs : ClaimSys.purge b lock id s = some s') :
    LedgerOk s' ∧ TableStep Conflicting (s.granted : Multiset MemoryClaim) s'.granted := by
  rcases purge_cases h hp hs with rfl | ⟨l, hent, hcap, rfl⟩
  · exact ⟨h, .refl _⟩
  · have hexact : l.entries.Perm (others id s.granted) := by
      rw [hent]; exact h.exact.filter _
    have hle : l.count ≤ l.capacity := by
      rw [hcap, ← l.length_entries, hent]
      refine (List.length_filter_le _ _).trans ?_
      rw [s.list.length_entries]
      exact h.le_capacity
    exact ⟨⟨hexact, hle, hcap ▸ h.capacity_lt⟩,
      .shrink (Multiset.coe_le.mpr (List.filter_sublist.subperm))⟩

/-- Removing the last entry, whose id no other entry has. -/
theorem LedgerOk.giveBack {lock : IpmResult} {accessId claimId : UInt64} (h : LedgerOk s)
    (hown : ∃ c ∈ s.granted, c.procId = accessId ∧ c.claimId = claimId)
    (hclean : lock = .success → s.Removable b ∧ ∃ pre c, s.list.entries = pre ++ [c] ∧
      c.claimId = claimId ∧ ∀ e ∈ pre, e.claimId ≠ claimId)
    (hs : ClaimSys.giveBack b lock accessId claimId s = some s') :
    LedgerOk s' ∧ TableStep Conflicting (s.granted : Multiset MemoryClaim) s'.granted := by
  unfold ClaimSys.giveBack ipmMemoryReleaseRegion at hs
  by_cases hlock : lock = .success
  · obtain ⟨hrem, pre, c, hent, hid, hpre⟩ := hclean hlock
    have hcount : s.list.count = pre.length + 1 := by
      rw [← s.list.length_entries, hent]; simp
    have hslot : s.list.claims pre.length = c := ClaimList.claims_at hent
    have hfirst : ∀ i < pre.length, (s.list.claims i).claimId ≠ claimId := by
      intro i hi
      rw [ClaimList.claims_before hent hi]
      exact hpre _ (List.getElem_mem hi)
    have hrun := claimRemoveFromList_found (b := b) h.le_capacity h.capacity_lt hrem
      (show pre.length < s.list.count by omega) (by rw [hslot, hid]) hfirst
    have hdrop : (s.list.dropAt pre.length).entries = pre := by
      simpa using ClaimList.entries_dropAt hent
    rw [if_neg (by simpa using hlock), hrun] at hs
    have hs' := Option.some.inj hs
    simp only [if_true] at hs'
    -- the ledger's claim with this id is `c`: every other listed id differs
    obtain ⟨g, hg, hgproc, hgid⟩ := hown
    obtain ⟨g', l₁, l₂, -, hg', hsplit, herase⟩ :=
      List.exists_of_eraseP (p := fun c => c.procId = accessId ∧ c.claimId = claimId) hg
        (by simp [hgproc, hgid])
    have hc : g' = c := by
      have hmem : g' ∈ s.list.entries := h.mem_iff.mpr (by rw [hsplit]; simp)
      rcases List.mem_append.mp (hent ▸ hmem) with hm | hm
      · have hg'' : g'.procId = accessId ∧ g'.claimId = claimId := by simpa using hg'
        exact absurd hg''.2 (hpre g' hm)
      · simpa using hm
    rw [herase] at hs'
    subst hs'
    have hperm : pre.Perm (l₁ ++ l₂) := by
      have hall : (pre ++ [c]).Perm (l₁ ++ c :: l₂) := by
        rw [← hent, ← hc, ← hsplit]; exact h.exact
      refine List.Perm.cons_inv (a := c) ?_
      exact (List.perm_append_singleton c pre).symm.trans (hall.trans List.perm_middle)
    have hle : (s.list.dropAt pre.length).count ≤ s.list.capacity := by
      have := h.le_capacity
      simp only [ClaimList.dropAt_count]
      omega
    refine ⟨⟨?_, hle, h.capacity_lt⟩, .shrink (Multiset.coe_le.mpr ?_)⟩
    · show (s.list.dropAt pre.length).entries.Perm (l₁ ++ l₂)
      rw [hdrop]
      exact hperm
    · rw [hsplit]
      exact ((List.sublist_cons_self g' l₂).append_left l₁).subperm
  · rw [if_pos hlock] at hs
    simp only [settle, if_neg hlock, Option.some.injEq] at hs
    exact ⟨hs ▸ h, hs ▸ .refl _⟩

theorem LedgerOk.clear {lock : IpmResult} (h : LedgerOk s)
    (hclean : lock = .success → s.list.entries = [] ∨ s.Removable b)
    (hs : ClaimSys.clear b lock s = some s') :
    LedgerOk s' ∧ TableStep Conflicting (s.granted : Multiset MemoryClaim) s'.granted := by
  unfold ClaimSys.clear ipmMemoryRemoveAllActiveClaims at hs
  by_cases hlock : lock = .success
  · have hlist : ∃ l, removeAllLoop b s.list.count s.list = .ret () l ∧ l.entries = [] ∧
        l.capacity = s.list.capacity := by
      rcases hclean hlock with hnil | hrem
      · have hzero : s.list.count = 0 := by rw [← s.list.length_entries, hnil]; rfl
        exact ⟨s.list, by simp [hzero, removeAllLoop], hnil, rfl⟩
      · exact removeAllLoop_empties _ _ h.le_capacity h.capacity_lt hrem le_rfl
    obtain ⟨l, hrun, hnil, hcap⟩ := hlist
    rw [if_neg (by simpa using hlock), hrun] at hs
    have hs' := Option.some.inj hs
    simp only [if_true] at hs'
    subst hs'
    have hzero : l.count = 0 := by rw [← l.length_entries, hnil]; rfl
    refine ⟨⟨?_, ?_, hcap ▸ h.capacity_lt⟩, .shrink (Multiset.zero_le _)⟩
    · show l.entries.Perm []
      rw [hnil]
    · show l.count ≤ l.capacity
      omega
  · rw [if_pos hlock] at hs
    simp only [settle, if_neg hlock, Option.some.injEq] at hs
    exact ⟨hs ▸ h, hs ▸ .refl _⟩

/-- **A clean step keeps the ledger exact and refines the lock table.** -/
theorem LedgerOk.step {a : ClaimEvent} (h : LedgerOk s) (hown : s.Owned a) (hclean : s.Clean b a)
    (hs : ClaimSys.step b s a = some s') :
    LedgerOk s' ∧ TableStep Conflicting (s.granted : Multiset MemoryClaim) s'.granted := by
  cases a with
  | claim hd lock access offset count =>
    simp only [ClaimSys.step] at hs
    split at hs
    · cases hs; exact ⟨h, .refl _⟩
    split at hs
    · cases hs; exact ⟨h, .refl _⟩
    rename_i hcheck
    split at hs
    · cases hs; exact ⟨h, .refl _⟩
    rename_i hlock
    -- taking an id does not touch the entries
    have h' : LedgerOk { s with list := s.list.takeId } := ⟨h.exact, h.le_capacity, h.capacity_lt⟩
    exact h'.turn (hclean (by simpa using hcheck) (by simpa using hlock)) hs
  | recheck i =>
    obtain ⟨claim, hget, hturn⟩ := Option.bind_eq_some_iff.mp hs
    have h' : LedgerOk { s with woken := s.woken.eraseIdx i } :=
      ⟨h.exact, h.le_capacity, h.capacity_lt⟩
    exact h'.turn (hclean claim hget) hturn
  | waitFails i => exact absurd hclean id
  | spurious i =>
    obtain ⟨claim, -, rfl⟩ := Option.map_eq_some_iff.mp hs
    exact ⟨⟨h.exact, h.le_capacity, h.capacity_lt⟩, .refl _⟩
  | signal i =>
    simp only [ClaimSys.step] at hs
    split at hs
    · cases hs
    split at hs
    · cases hs; exact ⟨⟨h.exact, h.le_capacity, h.capacity_lt⟩, .refl _⟩
    · obtain ⟨claim, -, rfl⟩ := Option.map_eq_some_iff.mp hs
      exact ⟨⟨h.exact, h.le_capacity, h.capacity_lt⟩, .refl _⟩
  | releaseRegion hd lock claimId => exact h.giveBack hown hclean hs
  | releaseAll hd lock => exact h.purge hclean hs
  | removeAll lock => exact h.clear hclean hs
  | close hd lock => exact h.purge hclean hs

theorem ledgerOk_init {raw : ClaimList} {capacity : Nat} (hcap : capacity < 2 ^ 31) :
    LedgerOk (init raw capacity) :=
  ⟨List.Perm.nil, Nat.zero_le _, hcap⟩

/-- **In every clean run the list is an exact ledger**, for every capacity and whatever the fresh
pages held. -/
theorem exact_of_clean {raw : ClaimList} {capacity : Nat} (hcap : capacity < 2 ^ 31)
    (hr : Reach (ClaimSys.step b) (fun s a => s.Owned a ∧ s.Clean b a) (init raw capacity) s) :
    s.Exact :=
  (hr.invariant (I := LedgerOk) (ledgerOk_init hcap) fun _ _ _ h hg hs =>
    (h.step hg.1 hg.2 hs).1).exact

/-- A writer and, behind it, a claim of its own that is then released: a clean run of three. -/
theorem exact_after_release :
    ∃ s, Reach (ClaimSys.step ⟨false⟩) (fun s a => s.Owned a ∧ s.Clean ⟨false⟩ a)
      (init zeroList pageCapacity) s ∧ s.granted.length = 1 ∧ s.Exact := by
  have h1 : Reach (ClaimSys.step ⟨false⟩) (fun s a => s.Owned a ∧ s.Clean ⟨false⟩ a)
      (init zeroList pageCapacity) _ :=
    .next (a := .claim ⟨1, 4096, .readWrite⟩ .success .readWrite 16 16) .init
      ⟨trivial, fun _ _ _ => by decide⟩ rfl
  have h2 : Reach (ClaimSys.step ⟨false⟩) (fun s a => s.Owned a ∧ s.Clean ⟨false⟩ a)
      (init zeroList pageCapacity) _ :=
    .next (a := .claim ⟨1, 4096, .readWrite⟩ .success .readWrite 24 16) h1
      ⟨trivial, fun _ _ _ => by decide⟩ rfl
  have h3 : Reach (ClaimSys.step ⟨false⟩) (fun s a => s.Owned a ∧ s.Clean ⟨false⟩ a)
      (init zeroList pageCapacity) _ :=
    .next (a := .releaseRegion ⟨1, 4096, .readWrite⟩ .success 1) h2
      ⟨by decide, fun _ => ⟨.inr (by decide), [⟨0, 1, .readWrite, 16, 16⟩],
        ⟨1, 1, .readWrite, 24, 16⟩, by decide, rfl, by decide⟩⟩ rfl
  exact ⟨_, h3, by decide, exact_of_clean (by decide) h3⟩

/-! ## Mutual exclusion -/

/-- Every claim the system knows of: granted, asleep or woken. -/
def requests (s : ClaimSys) : List MemoryClaim := s.granted ++ s.waiting ++ s.woken

theorem mem_requests {c : MemoryClaim} :
    c ∈ s.requests ↔ c ∈ s.granted ∨ c ∈ s.waiting ∨ c ∈ s.woken := by
  simp [requests]

theorem forall_requests {P : MemoryClaim → Prop} : (∀ c ∈ s.requests, P c) ↔
    (∀ c ∈ s.granted, P c) ∧ (∀ c ∈ s.waiting, P c) ∧ ∀ c ∈ s.woken, P c := by
  rw [requests, List.forall_mem_append, List.forall_mem_append, and_assoc]

/-- A critical section adds to the requests only what `k` adds. -/
theorem mem_requests_settle {α : Type} {o : Outcome ClaimList α} {k : α → ClaimSys → ClaimSys}
    {P : MemoryClaim → Prop} (hs : s.settle o k = some s') (hP : ∀ c ∈ s.requests, P c)
    (hk : ∀ a l, ∀ c ∈ (k a { s with list := l }).requests, P c) : ∀ c ∈ s'.requests, P c := by
  cases o with
  | ret a l => cases hs; exact hk a l
  | stop w l =>
    cases w with
    | assertion => cases hs; exact hP
    | fault => cases hs
    | spin => cases hs

theorem mem_requests_turn {P : MemoryClaim → Prop} (hs : turn b claim s = some s')
    (hP : ∀ c ∈ s.requests, P c) (hclaim : P claim) : ∀ c ∈ s'.requests, P c := by
  obtain ⟨hgr, hwt, hwk⟩ := forall_requests.mp hP
  refine mem_requests_settle hs hP fun res l => ?_
  rcases res with - | res
  · refine forall_requests.mpr ⟨hgr, List.forall_mem_append.mpr ⟨hwt, ?_⟩, hwk⟩
    exact List.forall_mem_singleton.mpr hclaim
  · cases res
    case success => exact forall_requests.mpr ⟨List.forall_mem_cons.mpr ⟨hclaim, hgr⟩, hwt, hwk⟩
    all_goals exact hP

/-- The new claim of an in-range request does not wrap. -/
theorem noWrap_newClaim {h : Handle} {lock : IpmResult} {access : AccessMode}
    {offset count : UInt64} (hin : ClaimEvent.InRange (.claim h lock access offset count))
    (l : ClaimList) : (l.newClaim h access offset count).NoWrap :=
  lt_of_le_of_lt hin h.size.toNat_lt

/-- What holds of every request and of the one the step makes still holds of every request. -/
theorem forall_requests_step {a : ClaimEvent} {P : MemoryClaim → Prop}
    (hs : ClaimSys.step b s a = some s') (hP : ∀ c ∈ s.requests, P c)
    (hnew : ∀ h lock access offset count, a = .claim h lock access offset count →
      P (s.list.newClaim h access offset count)) : ∀ c ∈ s'.requests, P c := by
  obtain ⟨hgr, hwt, hwk⟩ := forall_requests.mp hP
  -- moving sleeping request `i` to the woken ones
  have hwake : ∀ i claim n, s.waiting[i]? = some claim → ∀ c ∈ ClaimSys.requests
      { s with signals := n, waiting := s.waiting.eraseIdx i, woken := s.woken ++ [claim] },
      P c := by
    intro i claim n hget
    have hone : ∀ c ∈ [claim], P c :=
      List.forall_mem_singleton.mpr (hwt _ (List.mem_of_getElem? hget))
    exact forall_requests.mpr ⟨hgr, fun c hc => hwt c (List.mem_of_mem_eraseIdx hc),
      List.forall_mem_append.mpr ⟨hwk, hone⟩⟩
  cases a with
  | claim h lock access offset count =>
    simp only [ClaimSys.step] at hs
    split at hs
    · cases hs; exact hP
    split at hs
    · cases hs; exact hP
    split at hs
    · cases hs; exact hP
    · exact mem_requests_turn hs hP (hnew _ _ _ _ _ rfl)
  | recheck i =>
    obtain ⟨claim, hget, hturn⟩ := Option.bind_eq_some_iff.mp hs
    refine mem_requests_turn hturn ?_ (hwk _ (List.mem_of_getElem? hget))
    exact forall_requests.mpr ⟨hgr, hwt, fun c hc => hwk c (List.mem_of_mem_eraseIdx hc)⟩
  | waitFails i =>
    obtain ⟨claim, hget, rfl⟩ := Option.map_eq_some_iff.mp hs
    refine forall_requests.mpr ⟨?_, fun c hc => hwt c (List.mem_of_mem_eraseIdx hc), hwk⟩
    exact List.forall_mem_cons.mpr ⟨hwt _ (List.mem_of_getElem? hget), hgr⟩
  | spurious i =>
    obtain ⟨claim, hget, rfl⟩ := Option.map_eq_some_iff.mp hs
    exact hwake i claim s.signals hget
  | signal i =>
    simp only [ClaimSys.step] at hs
    split at hs
    · cases hs
    split at hs
    · cases hs; exact hP
    · obtain ⟨claim, hget, rfl⟩ := Option.map_eq_some_iff.mp hs
      exact hwake i claim _ hget
  | releaseRegion h lock claimId =>
    simp only [ClaimSys.step, giveBack] at hs
    refine mem_requests_settle hs hP fun res l => ?_
    split
    · exact forall_requests.mpr ⟨fun c hc => hgr c (List.mem_of_mem_eraseP hc), hwt, hwk⟩
    · exact hP
  | removeAll lock =>
    simp only [ClaimSys.step, ClaimSys.clear] at hs
    refine mem_requests_settle hs hP fun res l => ?_
    split
    · exact forall_requests.mpr ⟨List.forall_mem_nil P, hwt, hwk⟩
    · exact hP
  | releaseAll h lock | close h lock =>
    simp only [ClaimSys.step, ClaimSys.purge] at hs
    refine mem_requests_settle hs hP fun res l => ?_
    split
    · exact forall_requests.mpr ⟨fun c hc => hgr c (List.mem_filter.mp hc).1, hwt, hwk⟩
    · exact hP

theorem conflicting_symm (a c : MemoryClaim) (h : Conflicting a c) : Conflicting c a :=
  (claimsConflict_comm c a).trans h

theorem conflicting_irrefl (a : MemoryClaim) : ¬ Conflicting a a := by
  simp [Conflicting, claimsConflict]

/-- What a clean run of in-range requests keeps: the ledger, and a compatible table. -/
structure ExclusionOk (s : ClaimSys) : Prop where
  ledger : LedgerOk s
  compatible : Compatible Conflicting (s.granted : Multiset MemoryClaim)
  noWrap : ∀ c ∈ s.requests, c.NoWrap

theorem ExclusionOk.step {a : ClaimEvent} (h : ExclusionOk s) (hown : s.Owned a)
    (hin : a.InRange) (hclean : s.Clean b a) (hs : ClaimSys.step b s a = some s') :
    ExclusionOk s' := by
  obtain ⟨hledger, htable⟩ := h.ledger.step hown hclean hs
  refine ⟨hledger, h.compatible.step conflicting_symm conflicting_irrefl htable, ?_⟩
  refine forall_requests_step hs h.noWrap ?_
  rintro hd lock access offset count rfl
  exact noWrap_newClaim hin s.list

theorem ExclusionOk.mutualExclusion (h : ExclusionOk s) : s.MutualExclusion := by
  intro a ha c hc hproc hrw hov
  refine h.compatible a ha c hc (claimsConflict_of_overlaps ?_ ?_ hproc hrw hov)
  · exact h.noWrap a (mem_requests.mpr (.inl ha))
  · exact h.noWrap c (mem_requests.mpr (.inl hc))

/-- **Mutual exclusion of regions in every clean run** of in-range requests. -/
theorem mutualExclusion_of_clean {raw : ClaimList} {capacity : Nat} (hcap : capacity < 2 ^ 31)
    (hr : Reach (ClaimSys.step b) (fun s a => s.Owned a ∧ a.InRange ∧ s.Clean b a)
      (init raw capacity) s) : s.MutualExclusion := by
  have h0 : ExclusionOk (init raw capacity) := by
    refine ⟨ledgerOk_init hcap, compatible_zero, fun c hc => ?_⟩
    simp [requests, init] at hc
  have hok : ExclusionOk s := hr.invariant h0 fun _ _ _ h hg hs => h.step hg.1 hg.2.1 hg.2.2 hs
  exact hok.mutualExclusion

/-- Two handles reading the same bytes. -/
theorem mutualExclusion_two_readers :
    ∃ s, Reach (ClaimSys.step ⟨false⟩) (fun s a => s.Owned a ∧ a.InRange ∧ s.Clean ⟨false⟩ a)
      (init zeroList pageCapacity) s ∧ s.granted.length = 2 ∧ s.MutualExclusion := by
  have h1 : Reach (ClaimSys.step ⟨false⟩) (fun s a => s.Owned a ∧ a.InRange ∧ s.Clean ⟨false⟩ a)
      (init zeroList pageCapacity) _ :=
    .next (a := .claim ⟨1, 4096, .readWrite⟩ .success .readOnly 0 32) .init
      ⟨trivial, by decide, fun _ _ _ => by decide⟩ rfl
  have h2 : Reach (ClaimSys.step ⟨false⟩) (fun s a => s.Owned a ∧ a.InRange ∧ s.Clean ⟨false⟩ a)
      (init zeroList pageCapacity) _ :=
    .next (a := .claim ⟨2, 4096, .readOnly⟩ .success .readOnly 16 32) h1
      ⟨trivial, by decide, fun _ _ _ => by decide⟩ rfl
  exact ⟨_, h2, by decide, mutualExclusion_of_clean (by decide) h2⟩

/-! ## Where it goes wrong -/

/-- A second claim in front of the first one: `claim_add_to_list` shifts `1 - 0 - 1` entries, and
the claim on `[10, 20)` is gone from the list while its holder still has it. -/
def lostClaim : List ClaimEvent :=
  [.claim ⟨1, 4096, .readWrite⟩ .success .readWrite 10 10,
   .claim ⟨1, 4096, .readWrite⟩ .success .readOnly 0 5]

/-- ... so that a reader is let in on the bytes being written. -/
def readerLetIn : List ClaimEvent :=
  lostClaim ++ [.claim ⟨2, 4096, .readWrite⟩ .success .readOnly 10 10]

theorem lostClaim_not_exact :
    ∃ s, Reach (ClaimSys.step ⟨false⟩) (fun s a => s.Owned a) (init zeroList pageCapacity) s ∧
      ¬ s.Exact :=
  exists_reach_of_trace (g := fun s a => decide (s.Owned a))
    (t := fun s => decide (¬ s.list.entries.Perm s.granted)) lostClaim
    (fun _ _ h => of_decide_eq_true h)
    (fun s h => show ¬ s.list.entries.Perm s.granted from of_decide_eq_true h) (by decide)

/-- Two granted claims of different handles that share their first common byte, one of them
writing. -/
def clash (s : ClaimSys) : Bool :=
  s.granted.any fun a => s.granted.any fun c =>
    decide (a.procId ≠ c.procId ∧ (a.access = .readWrite ∨ c.access = .readWrite) ∧
      max a.offset.toNat c.offset.toNat < a.offset.toNat + a.size.toNat ∧
      max a.offset.toNat c.offset.toNat < c.offset.toNat + c.size.toNat)

theorem not_mutualExclusion_of_clash (h : s.clash = true) : ¬ s.MutualExclusion := by
  intro hme
  obtain ⟨a, ha, hrest⟩ := List.any_eq_true.mp h
  obtain ⟨c, hc, hac⟩ := List.any_eq_true.mp hrest
  obtain ⟨hproc, hrw, h₁, h₂⟩ := of_decide_eq_true hac
  exact hme a ha c hc hproc hrw
    ⟨max a.offset.toNat c.offset.toNat, ⟨le_max_left _ _, h₁⟩, le_max_right _ _, h₂⟩

theorem readerLetIn_not_mutualExclusion :
    ∃ s, Reach (ClaimSys.step ⟨false⟩) (fun s a => s.Owned a ∧ a.InRange)
      (init zeroList pageCapacity) s ∧ ¬ s.MutualExclusion :=
  exists_reach_of_trace (g := fun s a => decide (s.Owned a ∧ a.InRange)) (t := clash) readerLetIn
    (fun _ _ h => of_decide_eq_true h) (fun _ h => not_mutualExclusion_of_clash h) (by decide)

end ClaimSys

end Ipm
