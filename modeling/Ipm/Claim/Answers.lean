import Ipm.Claim.Calls

/-!
# What the region calls answer

`ipm_memory_claim_region` as its caller sees it: one call, from the lists it finds to the result it
returns. Other processes own the list while the call waits, so their part is a script: each wait comes
with what `ipm_condition_wait` returned and with the list that is there when the mutex is had again.

A call that is to tell the truth has three things to get right, and misses one of them: a failed wait
is reported as `IPM_RESULT_SUCCESS` although nothing was claimed. Its range check is right except
where `offset + count` does not fit a `size_t`. And `ipm_memory_release_region` is not able to refuse
an id without a trace: the count is gone before the id is looked for.
-/

set_option autoImplicit false

namespace Ipm

open Lib

/-! ## One call -/

/-- `i` after the scan for a conflict. It is an `unsigned`, so on a list of `2 ^ 32` entries without a
conflict it starts again at 0 (`none`). -/
def claimScan (claim : MemoryClaim) (list : ClaimList) : Option Nat :=
  let i := scan (claimsConflict claim) list.claims 0 (min list.count (2 ^ 32))
  if list.count < 2 ^ 32 ∨ i < 2 ^ 32 then some i else none

/-- One turn of the `for (;;)`, for lists of any length: `none` is a condition wait. -/
def claimTurn (b : Build) (claim : MemoryClaim) (list : ClaimList) :
    Outcome ClaimList (Option IpmResult) :=
  match claimScan claim list with
  | none => .stop .spin list
  | some i =>
    if i = list.count ∧ list.count ≠ list.capacity then
      (claimAddToList b claim list).andThen fun res list => .ret (some res) list
    else .ret none list

/-- The end of a condition wait: its result, and the list others have left. -/
structure Wait where
  result : IpmResult
  list : ClaimList

inductive CallEnd where
  /-- The result, and what has been written to `*p_claim_id`. -/
  | returned (res : IpmResult) (out : Option UInt64)
  | stopped (why : Stop)
  /-- The script is at its end and the call still waits. -/
  | asleep
  deriving DecidableEq, Repr

/-- What a call does to the list, from one wait to the next, and how it ends. -/
structure CallTrace where
  edits : List (ClaimList × ClaimList)
  ending : CallEnd

/-- The `for (;;)` of `ipm_memory_claim_region` and what comes after it. -/
def claimRegionLoop (b : Build) (claim : MemoryClaim) : ClaimList → List Wait → CallTrace
  | list, waits =>
    match claimTurn b claim list with
    | .stop why left => ⟨[(list, left)], .stopped why⟩
    | .ret (some res) left => ⟨[(list, left)], .returned res (some claim.claimId)⟩
    | .ret none left =>
      match waits with
      | [] => ⟨[(list, left)], .asleep⟩
      | w :: ws =>
        -- the error is reported, and the result is `IPM_RESULT_SUCCESS`
        if w.result ≠ .success then ⟨[(list, left)], .returned .success none⟩
        else
          let rest := claimRegionLoop b claim w.list ws
          ⟨(list, left) :: rest.edits, rest.ending⟩

/-- `ipm_memory_claim_region`. -/
def ipmMemoryClaimRegion (b : Build) (h : Handle) (lock : IpmResult) (access : AccessMode)
    (offset count : UInt64) (list : ClaimList) (waits : List Wait) : CallTrace :=
  if b.ndebug = false ∧ count = 0 then ⟨[], .stopped .assertion⟩
  else
    match claimRegionCheck h access offset count with
    | some res => ⟨[], .returned res none⟩
    | none =>
      if lock ≠ .success then ⟨[], .returned lock none⟩
      else
        let rest := claimRegionLoop b (list.newClaim h access offset count) list.takeId waits
        ⟨(list, list.takeId) :: rest.edits, rest.ending⟩

/-- On a list of a length that fits an `unsigned` a turn is the one of `Claim/Region.lean`. -/
theorem claimTurn_eq {b : Build} {claim : MemoryClaim} {list : ClaimList}
    (h : list.count < 2 ^ 32) : claimTurn b claim list = claimRegionTurn b claim list := by
  have hscan : claimScan claim list =
      some (scan (claimsConflict claim) list.claims 0 list.count) := by
    simp only [claimScan, Nat.min_eq_left h.le, h, true_or, if_true]
  simp only [claimTurn, hscan, claimRegionTurn, admits, Bool.and_eq_true, beq_iff_eq, bne_iff_ne]

/-! ## The truth about a claim -/

/-- Nothing is added between the two lists. -/
def AddsNone (e : ClaimList × ClaimList) : Prop :=
  e.2.count = e.1.count ∧ e.2.claims = e.1.claims

/-- One claim is added, and it is `claim`. -/
def AddsOne (claim : MemoryClaim) (e : ClaimList × ClaimList) : Prop :=
  e.2.count = e.1.count + 1 ∧ claim ∈ e.2.entries

/-- Of all that the call does to the list, one edit adds `claim` and the others nothing. -/
def CallTrace.Inserted (t : CallTrace) (claim : MemoryClaim) : Prop :=
  ∃ before e after, t.edits = before ++ e :: after ∧ AddsOne claim e ∧
    ∀ x ∈ before ++ after, AddsNone x

/-- A call that returns says what it has done. -/
def CallTrace.Truthful (h : Handle) (access : AccessMode) (offset count : UInt64) (t : CallTrace) :
    Prop :=
  ∀ res out, t.ending = .returned res out →
    (res = .success ↔ ∃ claim : MemoryClaim, out = some claim.claimId ∧
      claim.procId = h.accessId ∧ claim.access = access ∧ claim.offset = offset ∧
      claim.size = count ∧ t.Inserted claim) ∧
    (res ≠ .success → ∀ e ∈ t.edits, AddsNone e)

/-- The scan ends and does not admit the claim. -/
def Waits (claim : MemoryClaim) (list : ClaimList) : Prop :=
  ∃ i, claimScan claim list = some i ∧ ¬ (i = list.count ∧ list.count ≠ list.capacity)

/-- Some wait that the lists make the call come to does not return `IPM_RESULT_SUCCESS`. -/
def FailingWait (claim : MemoryClaim) : ClaimList → List Wait → Prop
  | _, [] => False
  | list, w :: ws =>
    Waits claim list ∧ (w.result ≠ .success ∨ FailingWait claim w.list ws)

variable {b : Build} {claim : MemoryClaim} {list : ClaimList}

/-- An insertion lists the claim, whatever it does to the others. -/
theorem ClaimList.mem_entries_putAt {p : Nat} (hp : p ≤ list.count) :
    claim ∈ (list.putAt p claim).entries := by
  rcases Nat.lt_or_eq_of_le hp with hlt | rfl
  · rw [entries_putAt hlt]
    simp
  · rw [putAt_count_eq_push, entries_push]
    simp

/-- **What a turn can come to.** -/
theorem claimTurn_cases (b : Build) (claim : MemoryClaim) (list : ClaimList) :
    (Waits claim list ∧ claimTurn b claim list = .ret none list) ∨
    (¬ Waits claim list ∧
      ((∃ why left, claimTurn b claim list = .stop why left) ∨
        claimTurn b claim list = .ret (some .errListSizeMismatch) list ∨
        ∃ left, claimTurn b claim list = .ret (some .success) left ∧ AddsOne claim (list, left))) := by
  cases hscan : claimScan claim list with
  | none =>
    refine .inr ⟨?_, .inl ⟨.spin, list, by simp [claimTurn, hscan]⟩⟩
    rintro ⟨i, hi, -⟩
    rw [hscan] at hi
    cases hi
  | some i =>
    by_cases hadm : i = list.count ∧ list.count ≠ list.capacity
    · have hnot : ¬ Waits claim list := by
        rintro ⟨j, hj, hne⟩
        rw [hscan] at hj
        cases hj
        exact hne hadm
      have hturn : claimTurn b claim list =
          (claimAddToList b claim list).andThen fun res list => .ret (some res) list := by
        simp [claimTurn, hscan, hadm]
      refine .inr ⟨hnot, ?_⟩
      rw [hturn]
      by_cases hroom : list.count < list.capacity
      · -- the scan has come to the end of the list, so `i` has not wrapped
        have hlt : list.count < 2 ^ 32 := by
          simp only [claimScan, Option.ite_none_right_eq_some, Option.some.injEq] at hscan
          have hi := hadm.1
          omega
        rw [claimAddToList_room hroom (by omega)]
        exact .inr (.inr ⟨_, rfl, rfl, ClaimList.mem_entries_putAt (list.insertPos_le claim)⟩)
      · cases hb : b.ndebug with
        | false =>
          refine .inl ⟨.assertion, list, ?_⟩
          simp [claimAddToList, Build.check, hb, hroom]
        | true =>
          refine .inr (.inl ?_)
          simp [claimAddToList, Build.check, hb, Nat.not_lt.mp hroom]
    · refine .inl ⟨⟨i, hscan, hadm⟩, ?_⟩
      simp [claimTurn, hscan, hadm]

/-- A call with a failing wait says `IPM_RESULT_SUCCESS` and writes nothing to `*p_claim_id`. -/
theorem claimRegionLoop_failing {waits : List Wait} (h : FailingWait claim list waits) :
    (claimRegionLoop b claim list waits).ending = .returned .success none := by
  induction waits generalizing list with
  | nil => exact h.elim
  | cons w ws ih =>
    obtain ⟨hwaits, hrest⟩ := h
    have hturn : claimTurn b claim list = .ret none list := by
      rcases claimTurn_cases b claim list with ⟨-, h⟩ | ⟨hnot, -⟩
      · exact h
      · exact absurd hwaits hnot
    rw [claimRegionLoop, hturn]
    by_cases hw : w.result = .success
    · simp only [hw, ne_eq, not_true_eq_false, if_false]
      apply ih
      exact hrest.resolve_left (not_not.mpr hw)
    · simp only [ne_eq, hw, not_false_eq_true, if_true]

/-- How the loop ends when no wait fails. -/
def LoopTrue (claim : MemoryClaim) (t : CallTrace) : Prop :=
  ∀ res out, t.ending = .returned res out →
    (res = .success ∧ out = some claim.claimId ∧ t.Inserted claim) ∨
    (res ≠ .success ∧ ∀ e ∈ t.edits, AddsNone e)

theorem LoopTrue.cons {t : CallTrace} {e : ClaimList × ClaimList} (h : LoopTrue claim t)
    (he : AddsNone e) : LoopTrue claim ⟨e :: t.edits, t.ending⟩ := by
  intro res out hend
  rcases h res out hend with ⟨hres, hout, before, x, after, hcut, hone, hnone⟩ | ⟨hres, hnone⟩
  · refine .inl ⟨hres, hout, e :: before, x, after, ?_, hone, ?_⟩
    · simp [hcut]
    · intro y hy
      rcases List.mem_cons.mp hy with rfl | hy
      · exact he
      · exact hnone y hy
  · refine .inr ⟨hres, ?_⟩
    intro y hy
    rcases List.mem_cons.mp hy with rfl | hy
    · exact he
    · exact hnone y hy

/-- A turn that does not wait ends the call. -/
theorem claimRegionLoop_ends (waits : List Wait) (h : ¬ Waits claim list) :
    LoopTrue claim (claimRegionLoop b claim list waits) := by
  rw [claimRegionLoop]
  rcases claimTurn_cases b claim list with ⟨hwaits, -⟩ | ⟨-, hturn⟩
  · exact absurd hwaits h
  rcases hturn with ⟨why, left, hturn⟩ | hturn | ⟨left, hturn, hone⟩
  · rw [hturn]
    intro res out hend
    cases hend
  · rw [hturn]
    intro res out hend
    cases hend
    refine .inr ⟨nofun, ?_⟩
    intro e he
    rw [List.mem_singleton.mp he]
    exact ⟨rfl, rfl⟩
  · rw [hturn]
    intro res out hend
    cases hend
    exact .inl ⟨rfl, rfl, [], (list, left), [], rfl, hone, fun x hx => absurd hx List.not_mem_nil⟩

/-- A call whose waits all succeed tells the truth. -/
theorem claimRegionLoop_true {waits : List Wait} (h : ¬ FailingWait claim list waits) :
    LoopTrue claim (claimRegionLoop b claim list waits) := by
  induction waits generalizing list with
  | nil =>
    by_cases hwaits : Waits claim list
    · rcases claimTurn_cases b claim list with ⟨-, hturn⟩ | ⟨hnot, -⟩
      · rw [claimRegionLoop, hturn]
        intro res out hend
        cases hend
      · exact absurd hwaits hnot
    · exact claimRegionLoop_ends [] hwaits
  | cons w ws ih =>
    by_cases hwaits : Waits claim list
    · rcases claimTurn_cases b claim list with ⟨-, hturn⟩ | ⟨hnot, -⟩
      · have hw : w.result = .success := by
          by_contra hne
          exact h ⟨hwaits, .inl hne⟩
        have hws : ¬ FailingWait claim w.list ws := by
          intro hrest
          exact h ⟨hwaits, .inr hrest⟩
        rw [claimRegionLoop, hturn]
        simp only [hw, ne_eq, not_true_eq_false, if_false]
        exact (ih hws).cons ⟨rfl, rfl⟩
      · exact absurd hwaits hnot
    · exact claimRegionLoop_ends (w :: ws) hwaits

/-- An edit adds one claim or none. -/
theorem not_inserted {t : CallTrace} (h : ∀ e ∈ t.edits, AddsNone e) : ¬ t.Inserted claim := by
  rintro ⟨before, e, after, hcut, hone, -⟩
  have hnone := h e (by simp [hcut])
  have hcount := hone.1
  rw [hnone.1] at hcount
  omega

theorem LoopTrue.truthful {t : CallTrace} {h : Handle} {access : AccessMode} {offset count : UInt64}
    {list : ClaimList} (ht : LoopTrue (list.newClaim h access offset count) t) :
    t.Truthful h access offset count := by
  intro res out hend
  rcases ht res out hend with ⟨rfl, hout, hins⟩ | ⟨hres, hnone⟩
  · refine ⟨?_, fun hne => absurd rfl hne⟩
    simp only [true_iff]
    exact ⟨list.newClaim h access offset count, hout, rfl, rfl, rfl, rfl, hins⟩
  · refine ⟨⟨fun hsucc => absurd hsucc hres, ?_⟩, fun _ => hnone⟩
    rintro ⟨claim, -, -, -, -, -, hins⟩
    exact absurd hins (not_inserted hnone)

/-- A call that gives up before it has the mutex. -/
theorem truthful_early {h : Handle} {access : AccessMode} {offset count : UInt64} {res : IpmResult}
    (hres : res ≠ .success) : (CallTrace.mk [] (.returned res none)).Truthful h access offset count := by
  have hnone : ∀ e ∈ (CallTrace.mk [] (.returned res none)).edits, AddsNone e := by
    intro e he
    cases he
  intro res' out hend
  cases hend
  refine ⟨⟨fun hsucc => absurd hsucc hres, ?_⟩, fun _ => hnone⟩
  rintro ⟨claim, -, -, -, -, -, hins⟩
  exact absurd hins (not_inserted hnone)

theorem claimRegionCheck_cases {h : Handle} {access : AccessMode} {offset count : UInt64}
    {res : IpmResult} (hcheck : claimRegionCheck h access offset count = some res) :
    res = .errBadAccess ∨ res = .errBadValue := by
  unfold claimRegionCheck at hcheck
  split at hcheck
  · exact .inl (Option.some.inj hcheck).symm
  · split at hcheck
    · exact .inr (Option.some.inj hcheck).symm
    · cases hcheck

theorem failingWait_takeId {waits : List Wait} :
    FailingWait claim list.takeId waits ↔ FailingWait claim list waits := by
  cases waits <;> rfl

/-- **When `ipm_memory_claim_region` tells the truth**: unless a wait fails. -/
theorem claimRegion_truthful_iff (b : Build) (h : Handle) (lock : IpmResult) (access : AccessMode)
    (offset : UInt64) {count : UInt64} (hcount : 0 < count) (list : ClaimList) (waits : List Wait) :
    (ipmMemoryClaimRegion b h lock access offset count list waits).Truthful h access offset count ↔
      ¬ (claimRegionCheck h access offset count = none ∧ lock = .success ∧
        FailingWait (list.newClaim h access offset count) list waits) := by
  have hassert : ¬ (b.ndebug = false ∧ count = 0) := by
    rintro ⟨-, rfl⟩
    exact absurd hcount (by decide)
  rw [ipmMemoryClaimRegion, if_neg hassert]
  cases hcheck : claimRegionCheck h access offset count with
  | some res =>
    have hres : res ≠ .success := by
      rcases claimRegionCheck_cases hcheck with rfl | rfl <;> exact nofun
    simp [truthful_early hres]
  | none =>
    by_cases hlock : lock = .success
    · subst hlock
      simp only [ne_eq, not_true_eq_false, if_false, true_and]
      constructor
      · intro htrue hfail
        have hend := claimRegionLoop_failing (b := b) (failingWait_takeId.mpr hfail)
        obtain ⟨claim, hout, -⟩ := (htrue _ _ hend).1.mp rfl
        cases hout
      · intro hnot
        have hloop := claimRegionLoop_true (b := b) (mt failingWait_takeId.mp hnot)
        exact (hloop.cons ⟨rfl, rfl⟩).truthful
    · simp [hlock, truthful_early]

/-- The first writer's claim, on a fresh list. -/
theorem claimRegion_truthful_fresh :
    (ipmMemoryClaimRegion ⟨false⟩ ⟨1, 4096, .readWrite⟩ .success .readWrite 0 32
      (claimListInit zeroList pageCapacity) []).Truthful ⟨1, 4096, .readWrite⟩ .readWrite 0 32 :=
  (claimRegion_truthful_iff ⟨false⟩ ⟨1, 4096, .readWrite⟩ .success .readWrite 0 (by decide)
    (claimListInit zeroList pageCapacity) []).mpr fun hfail => hfail.2.2

/-- `[0, 32)` for writing, by handle 1. -/
def oneWriter : ClaimList :=
  { claimListInit zeroList pageCapacity with
    count := 1, claimCounter := 1, claims := fun _ => ⟨0, 1, .readWrite, 0, 32⟩ }

/-- Handle 2 asks for the same bytes, its wait fails, and it is told it has them. -/
theorem claimRegion_failedWait_not_truthful :
    (0 : UInt64) < 32 ∧
      (ipmMemoryClaimRegion ⟨false⟩ ⟨2, 4096, .readWrite⟩ .success .readWrite 0 32 oneWriter
        [⟨.errOsUnexpected, oneWriter⟩]).ending = .returned .success none ∧
      ¬ (ipmMemoryClaimRegion ⟨false⟩ ⟨2, 4096, .readWrite⟩ .success .readWrite 0 32 oneWriter
        [⟨.errOsUnexpected, oneWriter⟩]).Truthful ⟨2, 4096, .readWrite⟩ .readWrite 0 32 := by
  have hend : (ipmMemoryClaimRegion ⟨false⟩ ⟨2, 4096, .readWrite⟩ .success .readWrite 0 32 oneWriter
      [⟨.errOsUnexpected, oneWriter⟩]).ending = .returned .success none := by
    decide
  refine ⟨by decide, hend, ?_⟩
  intro htrue
  obtain ⟨claim, hout, -⟩ := (htrue _ _ hend).1.mp rfl
  cases hout

/-! ## The range of a claim -/

/-- The request passes the access check, `offset + count` does not fit a `size_t`, and what is left of
it fits the block. -/
def Wraps (h : Handle) (access : AccessMode) (offset count : UInt64) : Prop :=
  ¬ (h.accessMode = .readOnly ∧ access = .readWrite) ∧
    2 ^ 64 ≤ offset.toNat + count.toNat ∧ offset.toNat + count.toNat - 2 ^ 64 ≤ h.size.toNat

instance (h : Handle) (access : AccessMode) (offset count : UInt64) :
    Decidable (Wraps h access offset count) := inferInstanceAs (Decidable (_ ∧ _ ∧ _))

/-- A claim is inserted only inside the block, and any other request is refused before the list is
touched. -/
def InsideOrRefused (h : Handle) (access : AccessMode) (offset count : UInt64) : Prop :=
  ∀ b lock list waits,
    (∀ claim, (ipmMemoryClaimRegion b h lock access offset count list waits).Inserted claim →
      offset.toNat + count.toNat ≤ h.size.toNat) ∧
    (h.size.toNat < offset.toNat + count.toNat →
      ∃ res, (res = .errBadValue ∨ res = .errBadAccess) ∧
        ipmMemoryClaimRegion b h lock access offset count list waits = ⟨[], .returned res none⟩)

/-- **What the range check lets through.** -/
theorem claimRegionCheck_eq_none_iff (h : Handle) (access : AccessMode) (offset count : UInt64) :
    claimRegionCheck h access offset count = none ↔
      ¬ (h.accessMode = .readOnly ∧ access = .readWrite) ∧
        (offset.toNat + count.toNat ≤ h.size.toNat ∨ Wraps h access offset count) := by
  have hsum : h.size < offset + count ↔ h.size.toNat < (offset.toNat + count.toNat) % 2 ^ 64 := by
    rw [UInt64.lt_iff_toNat_lt, UInt64.toNat_add]
  have hsize := h.size.toNat_lt
  have hoffset := offset.toNat_lt
  have hcount := count.toNat_lt
  unfold claimRegionCheck
  by_cases hacc : h.accessMode = .readOnly ∧ access = .readWrite
  · simp [hacc]
  · rw [if_neg hacc]
    simp only [hacc, not_false_eq_true, true_and, Wraps, hsum]
    split
    · simp only [reduceCtorEq, false_iff]
      omega
    · simp only [true_iff]
      omega

/-- **When claims stay inside the block.** -/
theorem insideOrRefused_iff {h : Handle} {access : AccessMode} {offset count : UInt64}
    (hcount : 0 < count) : InsideOrRefused h access offset count ↔ ¬ Wraps h access offset count := by
  have hcheck := claimRegionCheck_eq_none_iff h access offset count
  constructor
  · intro hin hwraps
    have hsize := h.size.toNat_lt
    have hpast : h.size.toNat < offset.toNat + count.toNat := by
      have hle := hwraps.2.1
      omega
    obtain ⟨res, -, hrun⟩ := (hin ⟨true⟩ .success zeroList []).2 hpast
    have hpass := hcheck.mpr ⟨hwraps.1, .inr hwraps⟩
    have hedits := congrArg CallTrace.edits hrun
    simp [ipmMemoryClaimRegion, hpass] at hedits
  · intro hnot b lock list waits
    have hassert : ¬ (b.ndebug = false ∧ count = 0) := by
      rintro ⟨-, rfl⟩
      exact absurd hcount (by decide)
    rw [ipmMemoryClaimRegion, if_neg hassert]
    cases hres : claimRegionCheck h access offset count with
    | some res =>
      refine ⟨?_, fun _ => ⟨res, (claimRegionCheck_cases hres).symm, rfl⟩⟩
      intro claim hins
      exact absurd hins (not_inserted fun e he => absurd he List.not_mem_nil)
    | none =>
      have hinside := (hcheck.mp hres).2.resolve_right hnot
      exact ⟨fun _ _ => hinside, fun hpast => absurd hinside (by omega)⟩

namespace RegionSys

/-- Claim calls keep clear of the wrap. -/
def InRange : RegionEvent → Prop
  | .call (.claimRegion h access offset count) => ¬ Wraps h access offset count
  | _ => True

instance : (a : RegionEvent) → Decidable (InRange a)
  | .call (.claimRegion h access offset count) =>
    inferInstanceAs (Decidable (¬ Wraps h access offset count))
  | .call (.releaseRegion _ _) | .call (.releaseAll _) | .call (.removeAllActiveClaims _) =>
    inferInstanceAs (Decidable True)
  | .lock _ _ | .wake _ _ _ | .step _ | .die _ _ => inferInstanceAs (Decidable True)

/-- A claim that has been handed to `claim_add_to_list` is inside its handle's block. -/
def ClaimsInside (s : RegionSys) : Prop :=
  ∀ t ∈ s.threads, t.passed = true → ∀ claim, t.claim = some claim →
    ∃ h access offset count, t.call = .claimRegion h access offset count ∧
      claim.offset.toNat + claim.size.toNat ≤ h.size.toNat

/-- A claim call that has got past its checks is inside its handle's block, and so is the claim it
has built. -/
structure RangeOk (t : RegionThread) : Prop where
  call : ∀ h access offset count, t.call = .claimRegion h access offset count →
    t.point = .lock ∨ t.point = .repair ∨ t.point = .body →
    offset.toNat + count.toNat ≤ h.size.toNat
  claim : ∀ claim, t.claim = some claim → ∃ h access offset count,
    t.call = .claimRegion h access offset count ∧
      claim.offset.toNat + claim.size.toNat ≤ h.size.toNat

variable {s s' : RegionSys} {i : Nat} {t t' : RegionThread} {a : RegionEvent}
variable {m m' : RobustMutex Nat} {l l' : ClaimList}

theorem RangeOk.start {call : RegionCall} (hg : InRange (.call call)) :
    RangeOk (RegionThread.start b call) := by
  refine ⟨?_, nofun⟩
  rintro h access offset count rfl hpoint
  have hpass : claimRegionCheck h access offset count = none := by
    simp only [RegionThread.start, RegionCall.start] at hpoint
    split at hpoint
    · simp at hpoint
    · split at hpoint
      · simp at hpoint
      · assumption
  exact ((claimRegionCheck_eq_none_iff h access offset count).mp hpass).2.resolve_right hg

/-- A thread that has left the part before its first turn, with its call and its claim as they were. -/
theorem RangeOk.leave {point : RegionPoint} (ht : RangeOk t) (hcall : t'.call = t.call)
    (hclaim : t'.claim = t.claim) (hpoint : t'.point = point)
    (hpast : point ≠ .lock ∧ point ≠ .repair ∧ point ≠ .body) : RangeOk t' := by
  refine ⟨?_, ?_⟩
  · intro h access offset count _ hp
    rw [hpoint] at hp
    rcases hp with hp | hp | hp
    · exact absurd hp hpast.1
    · exact absurd hp hpast.2.1
    · exact absurd hp hpast.2.2
  · rw [hcall, hclaim]
    exact ht.claim

theorem ThreadMove.range (h : ThreadMove b i m l t a m' l' t') (ht : RangeOk t) : RangeOk t' := by
  cases h with
  | acquire hp hm =>
    refine ⟨fun hd access offset count hc _ => ht.call hd access offset count hc (.inl hp), ht.claim⟩
  | trespass hp hcode hres =>
    exact ⟨fun hd access offset count hc _ => ht.call hd access offset count hc (.inl hp), ht.claim⟩
  | refuse hp hres => exact ht.leave rfl rfl rfl (by simp)
  | @wake claim dead _ code errno hp hm =>
    rcases awake_cases dead code errno claim with ⟨-, hawake⟩ | hawake
    · exact ht.leave rfl rfl hawake (by simp)
    · exact ht.leave rfl rfl hawake (by simp)
  | repair hp =>
    refine ⟨fun hd access offset count hc _ => ht.call hd access offset count hc ?_, ht.claim⟩
    exact .inr (.inl hp)
  | takeId hp hcall =>
    refine ⟨fun _ _ _ _ _ hp' => by simp at hp', ?_⟩
    intro claim hclaim
    cases hclaim
    exact ⟨_, _, _, _, hcall, ht.call _ _ _ _ hcall (.inr (.inr hp))⟩
  | release hp hcall hrun => exact ht.leave rfl rfl rfl (by simp)
  | sleep hp ha hown => exact ht.leave rfl rfl rfl (by simp)
  | refuseWait hp hown => exact ht.leave rfl rfl rfl (by simp)
  | letIn hp ha => exact ht.leave rfl rfl rfl (by simp)
  | add hp hrun hres => exact ht.leave rfl rfl rfl (by simp)
  | mismatch hp hrun => exact ht.leave rfl rfl rfl (by simp)
  | unlockMismatch hp => exact ht.leave rfl rfl rfl (by simp)
  | unlock hp => exact ht.leave rfl rfl rfl (by simp)
  | stopped hp hcall hrun => exact ht.leave rfl rfl rfl (by simp)
  | stoppedAdding hp hrun => exact ht.leave rfl rfl rfl (by simp)
  | die hret hdead => exact ht.leave rfl rfl rfl (by simp)

theorem rangeOk_step (hg : InRange a) (hs : step b s a = some s') (h : ∀ t ∈ s.threads, RangeOk t) :
    ∀ t ∈ s'.threads, RangeOk t := by
  rcases step_cases hs with ⟨call, rfl, rfl⟩ | ⟨i, t, m, l, t', hget, hmove, rfl⟩
  · intro t ht
    rcases List.mem_append.mp ht with ht | ht
    · exact h t ht
    · rw [List.mem_singleton.mp ht]
      exact RangeOk.start hg
  · exact forall_mem_set h (fun _ _ hx => hx) (hmove.range (h t (List.mem_of_getElem? hget)))

/-- In runs of such calls every claim that reaches the list is inside its handle's block. -/
theorem claimsInside_of_inRange {raw : ClaimList} {capacity : Nat}
    (hr : Reach (step b) (fun _ a => InRange a) (init raw capacity) s) : s.ClaimsInside := by
  have hok : ∀ t ∈ s.threads, RangeOk t :=
    hr.invariant (fun t ht => absurd ht List.not_mem_nil) fun _ _ _ h hg hs => rangeOk_step hg hs h
  intro t ht _ claim hclaim
  exact (hok t ht).claim claim hclaim

end RegionSys

/-- **Granted claims lie inside the block**, call by call and in every run, unless `offset + count`
wraps round into it. -/
theorem claims_inside_iff (h : Handle) (access : AccessMode) (offset : UInt64) {count : UInt64}
    (hcount : 0 < count) :
    (InsideOrRefused h access offset count ↔ ¬ Wraps h access offset count) ∧
    ∀ (b : Build) (raw : ClaimList) (capacity : Nat) (s : RegionSys),
      Reach (RegionSys.step b) (fun _ a => RegionSys.InRange a) (.init raw capacity) s →
        s.ClaimsInside :=
  ⟨insideOrRefused_iff hcount, fun _ _ _ _ hr => RegionSys.claimsInside_of_inRange hr⟩

/-- `[0, 32)` of a page. -/
theorem claims_inside_page :
    InsideOrRefused ⟨1, 4096, .readWrite⟩ .readWrite 0 32 ∧
      ∃ s : RegionSys, Reach (RegionSys.step ⟨false⟩) (fun _ a => RegionSys.InRange a)
        (.init zeroList pageCapacity) s ∧
        s.threads.map (·.point) = [.returned .success (some 0)] ∧ s.ClaimsInside := by
  have hboth := claims_inside_iff ⟨1, 4096, .readWrite⟩ .readWrite 0
    (show (0 : UInt64) < 32 by decide)
  have htrace : ∃ s : RegionSys, Reach (RegionSys.step ⟨false⟩) (fun _ a => RegionSys.InRange a)
      (.init zeroList pageCapacity) s ∧
      s.threads.map (·.point) = [.returned .success (some 0)] :=
    exists_reach_of_trace (g := fun _ a => decide (RegionSys.InRange a))
      (t := fun s => decide (s.threads.map (·.point) = [.returned .success (some 0)]))
      [.call (.claimRegion ⟨1, 4096, .readWrite⟩ .readWrite 0 32), .lock 0 none, .step 0, .step 0,
       .step 0, .step 0]
      (fun _ _ h => of_decide_eq_true h) (fun _ h => of_decide_eq_true h) (by decide)
  obtain ⟨s, hr, hend⟩ := htrace
  exact ⟨hboth.1.mpr (by decide), s, hr, hend, hboth.2 _ _ _ s hr⟩

/-- The last 16 bytes of the address space and the first 16 of the block are granted as one claim. -/
theorem wrapped_claim_not_inside :
    (ipmMemoryClaimRegion ⟨false⟩ ⟨1, 4096, .readWrite⟩ .success .readWrite 0xfffffffffffffff0 32
        (claimListInit zeroList pageCapacity) []).ending = .returned .success (some 0) ∧
      ¬ InsideOrRefused ⟨1, 4096, .readWrite⟩ .readWrite 0xfffffffffffffff0 32 := by
  refine ⟨by decide, ?_⟩
  intro hin
  exact (insideOrRefused_iff (by decide)).mp hin (by decide)

/-! ## Releasing an id that is not listed -/

/-- What `claim_remove_from_list` does without assertions when it does not find its id: on an empty
list the count is `2 ^ 64 - 1` from now on, and on any other the shift leaves the page. -/
theorem claimRemoveFromList_unknown {id : UInt64} {l : ClaimList} (hle : l.count ≤ l.capacity)
    (hcap : l.capacity < 2 ^ 31) (hid : ∀ e ∈ l.entries, e.claimId ≠ id) :
    claimRemoveFromList ⟨true⟩ id l =
      if l.count = 0 then .ret .errInvalidClaim l.decCount else .stop .fault l.decCount := by
  have hc32 : l.count % 2 ^ 32 = l.count := Nat.mod_eq_of_lt (by omega)
  have hscan : scan (fun c => decide (id = c.claimId)) l.decCount.claims 0 l.count = l.count := by
    rw [ClaimList.decCount_claims]
    apply scan_eq_end_iff.mpr
    intro e he
    exact decide_eq_false (hid e he).symm
  unfold claimRemoveFromList
  rw [Build.check_pos (.inl rfl), hc32, hscan]
  by_cases hzero : l.count = 0
  · rw [if_pos hzero, if_pos hzero]
  · -- the shift is of `2 ^ 32 - 2` slots
    have hlen : (l.count - 1 + 2 ^ 32 - l.count + 2 ^ 32 - 1) % 2 ^ 32 = 2 ^ 32 - 2 := by omega
    rw [if_neg hzero, if_neg hzero, if_neg (Nat.lt_irrefl _), if_pos (by omega), hlen]
    rw [ClaimList.move, if_neg, Outcome.andThen_stop]
    rw [ClaimList.decCount_capacity]
    omega

namespace RegionSys

/-- `ipm_memory_release_region` says `IPM_RESULT_ERR_INVALID_CLAIM` and leaves no trace. -/
def ReleaseRefused (b : Build) (h : Handle) (id : UInt64) (l : ClaimList) : Prop :=
  ∃ s, alone b (.releaseRegion h id) l = some s ∧
    s.threads.map (·.point) = [.returned .errInvalidClaim none] ∧ s.list.count = l.count ∧
    s.list.claims = l.claims ∧ s.mutex = .free

/-- A releasing call by a thread that has the list to itself is its body between a lock and an
unlock. -/
theorem alone_release (b : Build) {call : RegionCall} (l : ClaimList)
    (hcall : ∀ h access offset count, call ≠ .claimRegion h access offset count) :
    alone b call l =
      match release b call l with
      | .ret res l' => some ⟨.free, l', [⟨call, .returned res none, 1, 1, none, false⟩]⟩
      | .stop _ _ => none := by
  have hstart : call.start b = .lock := by
    cases call with
    | claimRegion h access offset count => exact absurd rfl (hcall h access offset count)
    | releaseRegion h claimId => rfl
    | releaseAll h => rfl
    | removeAllActiveClaims h => rfl
  cases hrun : release b call l with
  | ret res l' =>
    simp [alone, runGuarded, step, advance, finish, put, hrun, RegionThread.start, hstart,
      RobustMutex.acquire, RobustMutex.unlock, RobustMutex.onOwn]
  | stop w l' =>
    cases w with
    | spin =>
      simp [alone, runGuarded, step, advance, finish, put, hrun, RegionThread.start, hstart,
        RobustMutex.acquire]
    | assertion =>
      simp [alone, runGuarded, step, advance, finish, put, hrun, RegionThread.start, hstart,
        RobustMutex.acquire]
    | fault =>
      simp [alone, runGuarded, step, advance, finish, put, hrun, RegionThread.start, hstart,
        RobustMutex.acquire]

theorem alone_releaseRegion (b : Build) (h : Handle) (id : UInt64) (l : ClaimList) :
    alone b (.releaseRegion h id) l =
      match claimRemoveFromList b id l with
      | .ret res l' =>
        some ⟨.free, l', [⟨.releaseRegion h id, .returned res none, 1, 1, none, false⟩]⟩
      | .stop _ _ => none := by
  rw [alone_release b l fun _ _ _ _ hclaim => by cases hclaim]
  rfl

/-- **No unknown id is refused without a trace**, whatever the list: the count always moves. -/
theorem not_releaseRefused (b : Build) (h : Handle) (id : UInt64) (l : ClaimList) :
    ¬ ReleaseRefused b h id l := by
  rintro ⟨s, hrun, -, hcount, -, -⟩
  rw [alone_releaseRegion] at hrun
  have hdec := (claimRemoveFromList_decCount b id l).1
  cases hremove : claimRemoveFromList b id l with
  | stop w l' =>
    rw [hremove] at hrun
    cases hrun
  | ret res l' =>
    rw [hremove] at hrun hdec
    cases hrun
    rw [Outcome.shared_ret] at hdec
    have hsame : l.count = (l.count + 2 ^ 64 - 1) % 2 ^ 64 := hcount.symm.trans hdec
    omega

/-- An empty list has `2 ^ 64 - 1` entries after the refusal. -/
theorem release_of_empty_not_refused :
    (∀ e ∈ (claimListInit zeroList pageCapacity).entries, e.claimId ≠ 7) ∧
      (alone ⟨true⟩ (.releaseRegion ⟨1, 4096, .readWrite⟩ 7)
        (claimListInit zeroList pageCapacity)).map
          (fun s => (s.threads.map (·.point), s.list.count)) =
        some ([.returned .errInvalidClaim none], 2 ^ 64 - 1) ∧
      ¬ ReleaseRefused ⟨true⟩ ⟨1, 4096, .readWrite⟩ 7 (claimListInit zeroList pageCapacity) := by
  have hrun : (alone ⟨true⟩ (.releaseRegion ⟨1, 4096, .readWrite⟩ 7)
      (claimListInit zeroList pageCapacity)).map
        (fun s => (s.threads.map (·.point), s.list.count)) =
      some ([.returned .errInvalidClaim none], 2 ^ 64 - 1) := by
    decide
  refine ⟨by decide, hrun, ?_⟩
  rintro ⟨s, hs, -, hcount, -⟩
  rw [hs] at hrun
  simp only [Option.map_some, Option.some.injEq, Prod.mk.injEq] at hrun
  exact absurd (hcount.symm.trans hrun.2) (by decide)

end RegionSys

end Ipm
