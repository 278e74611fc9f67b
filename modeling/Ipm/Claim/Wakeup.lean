import Ipm.Claim.Ledger

/-!
# Lost wakeups

A request that finds a conflict, or a full list, sleeps on `list_cnd` until somebody signals it.
Once every signal has been sent and every woken request has had its turn, a request that still
sleeps should have a reason to: a listed claim it conflicts with, or a full list (`Blocked`).

The library loses wakeups in three ways. `ipm_memory_release_all`, `ipm_memory_close` and
`ipm_memory_remove_all_active_claims` remove claims and signal nobody. `ipm_memory_release_region`
signals *one* sleeper, who may not be the one that could go on, or not the only one. And a list
edit that drops an entry (`Claim/Edit.lean`) makes room without anybody knowing.

`Heard` is the condition that a step does none of this: whatever it makes of the list, each
sleeper is left `Covered`, that is blocked by a listed claim, by a full list, or by a conflicting
request that is awake and about to take its place. A signal still to be sent covers everybody.
-/

set_option autoImplicit false

namespace Ipm

open Lib

/-- A request has to sleep on this list. -/
def Blocked (l : ClaimList) (w : MemoryClaim) : Prop :=
  (∃ c ∈ l.entries, claimsConflict w c = true) ∨ l.count = l.capacity

theorem admits_eq_false_iff {l : ClaimList} {w : MemoryClaim} :
    admits l w = false ↔ Blocked l w := by
  rw [← Bool.not_eq_true, admits_iff, Blocked]
  constructor
  · intro h
    by_cases hfull : l.count = l.capacity
    · exact .inr hfull
    · refine .inl ?_
      by_contra hfree
      refine h ⟨fun e he => ?_, hfull⟩
      rw [Bool.eq_false_iff]
      exact fun hc => hfree ⟨e, he, hc⟩
  · rintro (⟨c, hc, hconf⟩ | hfull) ⟨hfree, hne⟩
    · rw [hfree c hc] at hconf; cases hconf
    · exact hne hfull

/-- A list that has only grown below its capacity blocks whom it blocked. -/
theorem Blocked.push {l : ClaimList} {w claim : MemoryClaim} (hroom : l.count ≠ l.capacity)
    (h : Blocked l w) : Blocked (l.push claim) w := by
  rcases h with ⟨c, hc, hconf⟩ | hfull
  · exact .inl ⟨c, by rw [ClaimList.entries_push]; exact List.mem_append_left _ hc, hconf⟩
  · exact absurd hfull hroom

namespace ClaimSys

variable {b : Build} {s s' : ClaimSys} {claim : MemoryClaim}

/-- With nothing left to signal and nobody awake, every sleeper is blocked. -/
def NoLostWakeup (s : ClaimSys) : Prop :=
  s.signals = 0 → s.woken = [] → ∀ w ∈ s.waiting, Blocked s.list w

/-- The sleeper conflicts with a request that is awake. -/
def Outrun (woken : List MemoryClaim) (w : MemoryClaim) : Prop :=
  ∃ u ∈ woken, claimsConflict w u = true

/-- The sleeper is blocked, or will be by a request that is awake. -/
def Covered (l : ClaimList) (woken : List MemoryClaim) (w : MemoryClaim) : Prop :=
  Blocked l w ∨ Outrun woken w

/-- A purge by `id` has nothing to remove, or removes it rightly and leaves every sleeper a reason:
a claim of another handle, or a request that is awake. -/
def PurgeHeard (b : Build) (s : ClaimSys) (id : UInt64) : Prop :=
  (∀ e ∈ s.list.entries, e.procId ≠ id) ∨
    (s.Removable b ∧ IdsKeepProc s.list.entries ∧ OwnTail id s.list.entries ∧
      ∀ w ∈ s.waiting, (∃ c ∈ others id s.list.entries, claimsConflict w c = true) ∨
        Outrun s.woken w)

/-- The step leaves no sleeper without a reason to sleep or somebody to wake it. -/
def Heard (b : Build) (s : ClaimSys) : ClaimEvent → Prop
  | .claim h lock access offset count => s.signals = 0 → s.waiting ≠ [] →
    claimRegionCheck h access offset count = none → lock = .success →
      s.Appends (s.list.newClaim h access offset count)
  | .recheck i => ∀ claim, s.woken[i]? = some claim → s.signals = 0 → s.waiting ≠ [] →
    s.Appends claim ∧ (admits s.list claim = false →
      ∀ w ∈ s.waiting, Covered s.list (s.woken.eraseIdx i) w)
  | .waitFails _ => True
  | .spurious _ => True
  | .signal i => s.signals = 1 → ∀ claim, s.waiting[i]? = some claim →
    ∀ w ∈ s.waiting.eraseIdx i, Covered s.list (s.woken ++ [claim]) w
  | .releaseRegion _ lock claimId => lock = .success →
    s.Removable b ∧ ∃ e ∈ s.list.entries, e.claimId = claimId
  | .releaseAll h lock => s.signals = 0 → s.waiting ≠ [] → lock = .success →
    s.PurgeHeard b h.accessId
  | .removeAll lock => s.signals = 0 → s.waiting ≠ [] → lock = .success →
    s.list.entries = [] ∨ ∀ w ∈ s.waiting, Outrun s.woken w
  | .close h lock => s.signals = 0 → s.waiting ≠ [] → lock = .success →
    s.PurgeHeard b h.accessId

/-- What holds between any two steps of a heard run. -/
structure WakeOk (s : ClaimSys) : Prop where
  le_capacity : s.list.count ≤ s.list.capacity
  capacity_lt : s.list.capacity < 2 ^ 31
  covered : s.signals = 0 → ∀ w ∈ s.waiting, Covered s.list s.woken w

theorem WakeOk.noLostWakeup (h : WakeOk s) : s.NoLostWakeup := by
  intro hsig hwoken w hw
  rcases h.covered hsig w hw with hb | ⟨u, hu, -⟩
  · exact hb
  · rw [hwoken] at hu; cases hu

/-! ## Covering is kept -/

theorem Outrun.mono {l₁ l₂ : List MemoryClaim} {w : MemoryClaim} (hsub : ∀ u ∈ l₁, u ∈ l₂)
    (h : Outrun l₁ w) : Outrun l₂ w :=
  let ⟨u, hu, hconf⟩ := h
  ⟨u, hsub u hu, hconf⟩

/-- A sleeper that waits behind `claim` is blocked by it once it is listed. -/
theorem Covered.push {l : ClaimList} {woken woken' : List MemoryClaim} {w : MemoryClaim}
    (hroom : l.count ≠ l.capacity) (hw : ∀ u ∈ woken, u = claim ∨ u ∈ woken')
    (h : Covered l woken w) : Covered (l.push claim) woken' w := by
  rcases h with h | ⟨u, hu, hconf⟩
  · exact .inl (h.push hroom)
  · rcases hw u hu with rfl | hu
    · exact .inl (.inl ⟨u, by rw [ClaimList.entries_push]; simp, hconf⟩)
    · exact .inr ⟨u, hu, hconf⟩

/-! ## One lemma per critical section -/

/-- A critical section after which only the ledger is brought up to date. -/
theorem settle_frame {α : Type} {o : Outcome ClaimList α} {k : α → ClaimSys → ClaimSys}
    (hk : ∀ a t, (k a t).list = t.list ∧ (k a t).waiting = t.waiting ∧ (k a t).woken = t.woken ∧
      (k a t).signals = t.signals) (hs : s.settle o k = some s') :
    s'.list = o.shared ∧ s'.waiting = s.waiting ∧ s'.woken = s.woken ∧
      s'.signals = s.signals := by
  cases o with
  | ret a l => cases hs; exact hk a _
  | stop w l =>
    cases w with
    | assertion => cases hs; exact ⟨rfl, rfl, rfl, rfl⟩
    | fault => cases hs
    | spin => cases hs

/-- Nobody is signalled, so the sleepers have to be covered by the list as it is now. -/
theorem WakeOk.of_frame {o : Outcome ClaimList IpmResult} (h : WakeOk s)
    (hlist : s'.list = o.shared ∧ s'.waiting = s.waiting ∧ s'.woken = s.woken ∧
      s'.signals = s.signals)
    (hcount : o.shared.count ≤ s.list.count ∧ o.shared.capacity = s.list.capacity)
    (hcov : s.signals = 0 → s.waiting ≠ [] → ∀ w ∈ s.waiting, Covered o.shared s.woken w) :
    WakeOk s' := by
  obtain ⟨hl, hwait, hwoken, hsig⟩ := hlist
  refine ⟨?_, ?_, ?_⟩
  · rw [hl, hcount.2]
    exact hcount.1.trans h.le_capacity
  · rw [hl, hcount.2]
    exact h.capacity_lt
  · intro h0 w hw
    rw [hwait] at hw
    rw [hl, hwoken]
    exact hcov (hsig ▸ h0) (List.ne_nil_of_mem hw) w hw

/-- A turn, with the sleepers covered by what is awake besides `claim`. -/
theorem WakeOk.turn {t : ClaimSys} (hle : t.list.count ≤ t.list.capacity)
    (hcap : t.list.capacity < 2 ^ 31)
    (happ : t.signals = 0 → t.waiting ≠ [] → t.Appends claim)
    (hgrant : t.signals = 0 → ∀ w ∈ t.waiting, Covered t.list (claim :: t.woken) w)
    (hsleep : t.signals = 0 → t.waiting ≠ [] → admits t.list claim = false →
      ∀ w ∈ t.waiting, Covered t.list t.woken w)
    (hs : ClaimSys.turn b claim t = some s') : WakeOk s' := by
  rcases turn_cases hle hcap hs with ⟨ha, l, hadd, hcount, hcapl, rfl⟩ | ⟨ha, rfl⟩
  · have hroom := (admits_iff.mp ha).2
    refine ⟨by simp only [hcount, hcapl]; omega, by simpa only [hcapl] using hcap, ?_⟩
    intro hsig w hw
    rw [claimAddToList_append (by omega) hcap (happ hsig (List.ne_nil_of_mem hw) ha)] at hadd
    cases hadd
    exact (hgrant hsig w hw).push hroom fun u hu => List.mem_cons.mp hu
  · refine ⟨hle, hcap, fun hsig w hw => ?_⟩
    rcases List.mem_append.mp hw with hw | hw
    · exact hsleep hsig (List.ne_nil_of_mem hw) ha w hw
    · rw [List.mem_singleton.mp hw]
      exact .inl (admits_eq_false_iff.mp ha)

theorem WakeOk.giveBack {lock : IpmResult} {accessId claimId : UInt64} (h : WakeOk s)
    (hheard : lock = .success → s.Removable b ∧ ∃ e ∈ s.list.entries, e.claimId = claimId)
    (hs : ClaimSys.giveBack b lock accessId claimId s = some s') : WakeOk s' := by
  unfold ClaimSys.giveBack ipmMemoryReleaseRegion at hs
  by_cases hlock : lock = .success
  · obtain ⟨hrem, hid⟩ := hheard hlock
    obtain ⟨p, hp, hrun⟩ := claimRemoveFromList_mem h.le_capacity h.capacity_lt hrem hid
    rw [if_neg (by simpa using hlock), hrun] at hs
    have hs' := Option.some.inj hs
    simp only [if_true] at hs'
    subst hs'
    have hle := h.le_capacity
    -- the signal to come covers whoever the removal made room for
    refine ⟨by simp only [ClaimList.dropAt_count, ClaimList.dropAt_capacity]; omega,
      h.capacity_lt, fun hsig => ?_⟩
    exact absurd hsig (Nat.succ_ne_zero _)
  · rw [if_pos hlock] at hs
    simp only [settle, if_neg hlock, Option.some.injEq] at hs
    exact hs ▸ h

theorem WakeOk.purge {lock : IpmResult} {id : UInt64} (h : WakeOk s)
    (hheard : s.signals = 0 → s.waiting ≠ [] → lock = .success → s.PurgeHeard b id)
    (hs : ClaimSys.purge b lock id s = some s') : WakeOk s' := by
  have hcount : s.list.count < 2 ^ 31 := lt_of_le_of_lt h.le_capacity h.capacity_lt
  have hframe := settle_frame (fun a t => by split <;> exact ⟨rfl, rfl, rfl, rfl⟩) hs
  refine h.of_frame hframe ?_ fun hsig hne w hw => ?_
  · unfold ipmMemoryReleaseAll
    split
    · exact ⟨le_rfl, rfl⟩
    · rw [Outcome.shared_andThen_ret]
      exact releaseAllLoop_shared _ _ _ hcount
  unfold ipmMemoryReleaseAll
  by_cases hlock : lock = .success
  · rw [if_neg (by simpa using hlock), Outcome.shared_andThen_ret]
    rcases hheard hsig hne hlock with hnone | ⟨hrem, hids, htail, hreason⟩
    · rw [releaseAllLoop_none hcount hnone _ _ (by omega)]
      exact h.covered hsig w hw
    · obtain ⟨l, hrun, hent, -⟩ := releaseAllLoop_ownTail s.list.count 0 s.list h.le_capacity
        h.capacity_lt hrem hids htail (by simp) (by omega)
      rw [hrun, Outcome.shared_ret]
      rcases hreason w hw with ⟨c, hc, hconf⟩ | hout
      · exact .inl (.inl ⟨c, hent ▸ hc, hconf⟩)
      · exact .inr hout
  · rw [if_pos hlock]
    exact h.covered hsig w hw

theorem WakeOk.clear {lock : IpmResult} (h : WakeOk s)
    (hheard : s.signals = 0 → s.waiting ≠ [] → lock = .success →
      s.list.entries = [] ∨ ∀ w ∈ s.waiting, Outrun s.woken w)
    (hs : ClaimSys.clear b lock s = some s') : WakeOk s' := by
  have hcount : s.list.count < 2 ^ 31 := lt_of_le_of_lt h.le_capacity h.capacity_lt
  have hframe := settle_frame (fun a t => by split <;> exact ⟨rfl, rfl, rfl, rfl⟩) hs
  refine h.of_frame hframe ?_ fun hsig hne w hw => ?_
  · unfold ipmMemoryRemoveAllActiveClaims
    split
    · exact ⟨le_rfl, rfl⟩
    · rw [Outcome.shared_andThen_ret]
      exact removeAllLoop_shared _ _ hcount
  unfold ipmMemoryRemoveAllActiveClaims
  by_cases hlock : lock = .success
  · rw [if_neg (by simpa using hlock), Outcome.shared_andThen_ret]
    rcases hheard hsig hne hlock with hnil | hout
    · have hzero : s.list.count = 0 := by rw [← s.list.length_entries, hnil]; rfl
      have hrun : removeAllLoop b s.list.count s.list = .ret () s.list := by
        simp [hzero, removeAllLoop]
      rw [hrun]
      exact h.covered hsig w hw
    · exact .inr (hout w hw)
  · rw [if_pos hlock]
    exact h.covered hsig w hw

/-! ## Runs -/

/-- Moving sleeper `i` to the woken requests, when the others stay covered. -/
theorem WakeOk.wake {i n : Nat} (h : WakeOk s)
    (hcov : n = 0 → ∀ w ∈ s.waiting.eraseIdx i, Covered s.list (s.woken ++ [claim]) w) :
    WakeOk { s with signals := n, waiting := s.waiting.eraseIdx i, woken := s.woken ++ [claim] } :=
  ⟨h.le_capacity, h.capacity_lt, hcov⟩

theorem WakeOk.step {a : ClaimEvent} (h : WakeOk s) (hheard : s.Heard b a)
    (hs : ClaimSys.step b s a = some s') : WakeOk s' := by
  cases a with
  | claim hd lock access offset count =>
    simp only [ClaimSys.step] at hs
    split at hs
    · cases hs; exact h
    split at hs
    · cases hs; exact h
    rename_i hcheck
    split at hs
    · cases hs; exact h
    rename_i hlock
    refine WakeOk.turn (t := { s with list := s.list.takeId }) h.le_capacity h.capacity_lt ?_ ?_ ?_ hs
    · exact fun hsig hne => hheard hsig hne (by simpa using hcheck) (by simpa using hlock)
    · intro hsig w hw
      rcases h.covered hsig w hw with hb | hout
      · exact .inl hb
      · exact .inr (hout.mono fun u hu => List.mem_cons_of_mem _ hu)
    · exact fun hsig _ _ w hw => h.covered hsig w hw
  | recheck i =>
    obtain ⟨claim, hget, hturn⟩ := Option.bind_eq_some_iff.mp hs
    have hmem : ∀ u ∈ s.woken, u ∈ claim :: s.woken.eraseIdx i := by
      intro u hu
      obtain ⟨hi, rfl⟩ := List.getElem?_eq_some_iff.mp hget
      exact (List.getElem_cons_eraseIdx_perm hi).mem_iff.mpr hu
    refine WakeOk.turn (t := { s with woken := s.woken.eraseIdx i }) h.le_capacity h.capacity_lt
      ?_ ?_ ?_ hturn
    · exact fun hsig hne => (hheard claim hget hsig hne).1
    · intro hsig w hw
      rcases h.covered hsig w hw with hb | hout
      · exact .inl hb
      · exact .inr (hout.mono hmem)
    · exact fun hsig hne hadm => (hheard claim hget hsig hne).2 hadm
  | waitFails i =>
    obtain ⟨claim, -, rfl⟩ := Option.map_eq_some_iff.mp hs
    exact ⟨h.le_capacity, h.capacity_lt,
      fun hsig w hw => h.covered hsig w (List.mem_of_mem_eraseIdx hw)⟩
  | spurious i =>
    obtain ⟨claim, -, rfl⟩ := Option.map_eq_some_iff.mp hs
    refine h.wake fun hsig w hw => ?_
    rcases h.covered hsig w (List.mem_of_mem_eraseIdx hw) with hb | hout
    · exact .inl hb
    · exact .inr (hout.mono fun u hu => List.mem_append_left _ hu)
  | signal i =>
    simp only [ClaimSys.step] at hs
    split at hs
    · cases hs
    rename_i hne
    split at hs
    · rename_i hnil
      cases hs
      exact ⟨h.le_capacity, h.capacity_lt, fun _ w hw => by rw [hnil] at hw; cases hw⟩
    · obtain ⟨claim, hget, rfl⟩ := Option.map_eq_some_iff.mp hs
      exact h.wake fun hsig => hheard (by omega) claim hget
  | releaseRegion hd lock claimId => exact h.giveBack hheard hs
  | releaseAll hd lock => exact h.purge hheard hs
  | removeAll lock => exact h.clear hheard hs
  | close hd lock => exact h.purge hheard hs

/-- **No wakeup is lost in a heard run.** -/
theorem noLostWakeup_of_heard {raw : ClaimList} {capacity : Nat} (hcap : capacity < 2 ^ 31)
    (hr : Reach (ClaimSys.step b) (fun s a => s.Heard b a) (init raw capacity) s) :
    s.NoLostWakeup := by
  have h0 : WakeOk (init raw capacity) :=
    ⟨Nat.zero_le _, hcap, fun _ w hw => absurd hw List.not_mem_nil⟩
  have hok : WakeOk s := hr.invariant h0 fun _ _ _ h hg hs => h.step hg hs
  exact hok.noLostWakeup

/-- A writer holds the region and a second one sleeps on it. -/
theorem noLostWakeup_one_sleeper :
    ∃ s, Reach (ClaimSys.step ⟨false⟩) (fun s a => s.Heard ⟨false⟩ a)
      (init zeroList pageCapacity) s ∧ s.waiting.length = 1 ∧ s.NoLostWakeup := by
  have h1 : Reach (ClaimSys.step ⟨false⟩) (fun s a => s.Heard ⟨false⟩ a)
      (init zeroList pageCapacity) _ :=
    .next (a := .claim ⟨1, 4096, .readWrite⟩ .success .readWrite 0 32) .init
      (fun _ hne => absurd rfl hne) rfl
  have h2 : Reach (ClaimSys.step ⟨false⟩) (fun s a => s.Heard ⟨false⟩ a)
      (init zeroList pageCapacity) _ :=
    .next (a := .claim ⟨2, 4096, .readWrite⟩ .success .readWrite 0 32) h1
      (fun _ hne => absurd rfl hne) rfl
  exact ⟨_, h2, by decide, noLostWakeup_of_heard (by decide) h2⟩

/-- The writer gives everything back with `ipm_memory_release_all`, which tells nobody. -/
def sleepForever : List ClaimEvent :=
  [.claim ⟨1, 4096, .readWrite⟩ .success .readWrite 0 32,
   .claim ⟨2, 4096, .readWrite⟩ .success .readWrite 0 32,
   .releaseAll ⟨1, 4096, .readWrite⟩ .success]

/-- Nothing is pending and somebody sleeps although it would be admitted. -/
def forgotten (s : ClaimSys) : Bool :=
  s.signals == 0 && s.woken.isEmpty && s.waiting.any (admits s.list)

theorem not_noLostWakeup_of_forgotten (h : s.forgotten = true) : ¬ s.NoLostWakeup := by
  intro hno
  simp only [forgotten, Bool.and_eq_true, beq_iff_eq, List.isEmpty_iff, List.any_eq_true] at h
  obtain ⟨⟨hsig, hwoken⟩, w, hw, hadm⟩ := h
  have hblocked : admits s.list w = false := admits_eq_false_iff.mpr (hno hsig hwoken w hw)
  rw [hadm] at hblocked
  cases hblocked

theorem sleepForever_not_noLostWakeup :
    ∃ s, Reach (ClaimSys.step ⟨false⟩) (fun s a => s.Owned a ∧ a.InRange)
      (init zeroList pageCapacity) s ∧ ¬ s.NoLostWakeup :=
  exists_reach_of_trace (g := fun s a => decide (s.Owned a ∧ a.InRange)) (t := forgotten)
    sleepForever (fun _ _ h => of_decide_eq_true h)
    (fun _ h => not_noLostWakeup_of_forgotten h) (by decide)

end ClaimSys

end Ipm
