import Ipm.Claim.Deadlock

/-!
# Overtaking

`ipm_memory_release_region` unlocks before it signals, and whoever is woken has to lock again before it
looks at the list. In between anybody else may claim what has been given back, the one who has just given
it back included, and nothing in the list says that somebody was there before.

So there is no bound on how often a request is overtaken: with the one claim it waits for, and a holder
that takes its region again as soon as it has given it back, a request can be passed over any number of
times, in clean runs, and woken each time (`unbounded_overtaking`).
-/

set_option autoImplicit false

namespace Ipm

open Lib

namespace ClaimSys

/-- A step of a clean run of in-range requests. -/
abbrev CleanStep (b : Build) (s : ClaimSys) (a : ClaimEvent) : Prop :=
  s.Owned a ∧ a.InRange ∧ s.Clean b a

/-- ... and where it leads. -/
abbrev Goes (b : Build) (s : ClaimSys) (a : ClaimEvent) (s' : ClaimSys) : Prop :=
  CleanStep b s a ∧ ClaimSys.step b s a = some s'

/-- `c'` is a claim of the owner of `c`, for the same region and as `c` was. -/
structure SameRegion (c c' : MemoryClaim) : Prop where
  procId : c'.procId = c.procId
  access : c'.access = c.access
  offset : c'.offset = c.offset
  size : c'.size = c.size

/-- In one round `hd` gives `c` back, the sleeping `w` is woken for it, `hd` is granted the same region
again, as `c'`, and then `w` looks and sleeps again. -/
inductive Round (b : Build) (hd : Handle) (w c : MemoryClaim) (s : ClaimSys) (c' : MemoryClaim)
    (s' : ClaimSys) : Prop
  | mk {s₁ s₂ s₃ : ClaimSys} {i j : Nat} (held : s.granted = [c])
      (back : Goes b s (.releaseRegion hd .success c.claimId) s₁) (given : s₁.granted = [])
      (asleep : s₁.waiting[i]? = some w) (wake : Goes b s₁ (.signal i) s₂)
      (again : Goes b s₂ (.claim hd .success c.access c.offset c.size) s₃)
      (granted : s₃.granted = [c']) (same : SameRegion c c')
      (awake : s₃.woken[j]? = some w) (look : Goes b s₃ (.recheck j) s') (sleeps : w ∈ s'.waiting)

/-- `n` rounds. -/
inductive Overtaken (b : Build) (hd : Handle) (w c : MemoryClaim) (s : ClaimSys) :
    Nat → MemoryClaim → ClaimSys → Prop
  | none : Overtaken b hd w c s 0 c s
  | round {n : Nat} {c' c'' : MemoryClaim} {s' s'' : ClaimSys} (h : Overtaken b hd w c s n c' s')
      (hround : Round b hd w c' s' c'' s'') : Overtaken b hd w c s (n + 1) c'' s''

variable {b : Build} {s s' s'' : ClaimSys} {w c : MemoryClaim} {n : Nat}

/-- `w` sleeps, and `c` is the only claim there is. -/
structure Barred (b : Build) (c w : MemoryClaim) (s : ClaimSys) : Prop where
  ledger : LedgerOk s
  only : s.list.entries = [c]
  waits : w ∈ s.waiting
  removable : s.Removable b

theorem Barred.count (h : Barred b c w s) : s.list.count = 1 := by
  rw [← s.list.length_entries, h.only]
  rfl

theorem Barred.granted (h : Barred b c w s) : s.granted = [c] := by
  have hperm : [c].Perm s.granted := h.only ▸ h.ledger.exact
  exact List.perm_singleton.mp hperm.symm

/-! ## One round -/

/-- The state once the only claim has been given back, and nobody has been woken yet. -/
def vacated (s : ClaimSys) : ClaimSys :=
  { s with list := s.list.dropAt 0, signals := s.signals + 1, granted := [] }

theorem Barred.release (h : Barred b c w s) {hd : Handle} (howner : c.procId = hd.accessId) :
    Goes b s (.releaseRegion hd .success c.claimId) s.vacated := by
  have hcount := h.count
  have hsplit : s.list.entries = [] ++ c :: [] := h.only
  have hslot : s.list.claims 0 = c := ClaimList.claims_at hsplit
  have hrun : claimRemoveFromList b c.claimId s.list = .ret .success (s.list.dropAt 0) :=
    claimRemoveFromList_found h.ledger.le_capacity h.ledger.capacity_lt h.removable
      (by omega) (by rw [hslot]) nofun
  refine ⟨⟨⟨c, ?_, howner, rfl⟩, trivial, fun _ => ⟨h.removable, [], c, h.only, rfl, nofun⟩⟩, ?_⟩
  · rw [h.granted]
    exact List.mem_singleton_self c
  · simp [ClaimSys.step, giveBack, ipmMemoryReleaseRegion, hrun, settle, vacated, h.granted, howner]

/-- `hd` has `c`, and would get it again. -/
structure Reclaims (hd : Handle) (c : MemoryClaim) : Prop where
  owner : c.procId = hd.accessId
  check : claimRegionCheck hd c.access c.offset c.size = none
  inRange : c.offset.toNat + c.size.toNat ≤ hd.size.toNat
  pos : c.size ≠ 0

/-- The claim `hd` gets instead of `c`. -/
def next (s : ClaimSys) (hd : Handle) (c : MemoryClaim) : MemoryClaim :=
  s.list.newClaim hd c.access c.offset c.size

/-- ... and the list with it. -/
def nextList (s : ClaimSys) (hd : Handle) (c : MemoryClaim) : ClaimList :=
  ((s.list.dropAt 0).takeId).push (s.next hd c)

/-- Sleeper `i`, which is `w`, has been woken and has not looked yet. -/
def roused (s : ClaimSys) (i : Nat) (w : MemoryClaim) : ClaimSys :=
  { s.vacated with signals := s.signals, waiting := s.waiting.eraseIdx i, woken := s.woken ++ [w] }

/-- `hd` has been before it. -/
def reclaimed (s : ClaimSys) (i : Nat) (w : MemoryClaim) (hd : Handle) (c : MemoryClaim) : ClaimSys :=
  { s.roused i w with list := s.nextList hd c, granted := [s.next hd c] }

/-- It sleeps again. -/
def barredAgain (s : ClaimSys) (i : Nat) (w : MemoryClaim) (hd : Handle) (c : MemoryClaim) : ClaimSys :=
  { s.reclaimed i w hd c with waiting := s.waiting.eraseIdx i ++ [w], woken := s.woken }

variable {hd : Handle} {i : Nat}

theorem entries_vacated (h : Barred b c w s) : s.vacated.list.entries = [] := by
  have hsplit : s.list.entries = [] ++ c :: [] := h.only
  exact ClaimList.entries_dropAt hsplit

theorem Barred.signal (h : Barred b c w s) (hi : s.waiting[i]? = some w) :
    Goes b s.vacated (.signal i) (s.roused i w) := by
  have hne : s.vacated.waiting ≠ [] := List.ne_nil_of_mem h.waits
  refine ⟨⟨trivial, trivial, trivial⟩, ?_⟩
  have hget : s.vacated.waiting[i]? = some w := hi
  simp only [ClaimSys.step, if_neg hne, hget]
  rfl

theorem Barred.reclaim (h : Barred b c w s) (hre : Reclaims hd c) :
    Goes b (s.roused i w) (.claim hd .success c.access c.offset c.size) (s.reclaimed i w hd c) := by
  have hcount := h.count
  have hle := h.ledger.le_capacity
  have hcap := h.ledger.capacity_lt
  have hentries : (s.list.dropAt 0).takeId.entries = [] := entries_vacated h
  have hadmits : admits (s.list.dropAt 0).takeId (s.next hd c) = true := by
    refine admits_iff.mpr ⟨by rw [hentries]; nofun, ?_⟩
    show s.list.count - 1 ≠ s.list.capacity
    omega
  have hadd : claimAddToList b (s.next hd c) (s.list.dropAt 0).takeId = .ret .success (s.nextList hd c) := by
    refine claimAddToList_append ?_ hcap (by rw [hentries]; nofun)
    show s.list.count - 1 < s.list.capacity
    omega
  refine ⟨⟨trivial, hre.inRange, fun _ _ _ => ?_⟩, ?_⟩
  · show ∀ e ∈ (s.list.dropAt 0).entries, _
    rw [show (s.list.dropAt 0).entries = [] from hentries]
    nofun
  · have hturn : ClaimSys.turn b (s.next hd c)
        { s.roused i w with list := (s.list.dropAt 0).takeId } = some (s.reclaimed i w hd c) := by
      rw [turn, claimRegionTurn, if_pos hadmits, hadd]
      rfl
    have hzero : ¬ (b.ndebug = false ∧ c.size = 0) := fun hz => hre.pos hz.2
    have hpass : ¬ (claimRegionCheck hd c.access c.offset c.size).isSome = true := by
      rw [hre.check]
      nofun
    rw [ClaimSys.step, if_neg hzero, if_neg hpass, if_neg (not_not_intro rfl)]
    exact hturn

theorem entries_nextList (h : Barred b c w s) : (s.nextList hd c).entries = [s.next hd c] := by
  have hentries : (s.list.dropAt 0).takeId.entries = [] := entries_vacated h
  rw [nextList, ClaimList.entries_push, hentries]
  rfl

/-- A claim of the same handle, for the same region. -/
theorem conflict_next (howner : c.procId = hd.accessId) :
    claimsConflict w (s.next hd c) = claimsConflict w c := by
  rw [claimsConflict, claimsConflict, howner]
  rfl

theorem turn_of_refused (hrefused : admits s.list w = false) :
    turn b w s = some { s with waiting := s.waiting ++ [w] } := by
  rw [turn, claimRegionTurn, if_neg (Bool.eq_false_iff.mp hrefused)]
  rfl

theorem Barred.recheck (h : Barred b c w s) (hre : Reclaims hd c) (hconf : claimsConflict w c = true) :
    Goes b (s.reclaimed i w hd c) (.recheck s.woken.length) (s.barredAgain i w hd c) := by
  have hrefused : admits (s.nextList hd c) w = false := by
    refine admits_eq_false_iff.mpr (.inl ⟨s.next hd c, ?_, ?_⟩)
    · rw [entries_nextList h]
      exact List.mem_singleton_self _
    · rw [conflict_next hre.owner]
      exact hconf
  have hget : (s.reclaimed i w hd c).woken[s.woken.length]? = some w := List.getElem?_concat_length
  have herase : (s.woken ++ [w]).eraseIdx s.woken.length = s.woken := by
    rw [List.eraseIdx_append_of_length_le (Nat.le_refl _), Nat.sub_self]
    exact List.append_nil _
  refine ⟨⟨trivial, trivial, fun claim hclaim hadm => ?_⟩, ?_⟩
  · obtain rfl := Option.some.inj (hget.symm.trans hclaim)
    have hfalse : admits (s.nextList hd c) w = true := hadm
    rw [hrefused] at hfalse
    cases hfalse
  · rw [ClaimSys.step, hget]
    show turn b w { s.reclaimed i w hd c with woken := (s.woken ++ [w]).eraseIdx s.woken.length } = _
    rw [herase]
    exact turn_of_refused (s := { s.reclaimed i w hd c with woken := s.woken }) hrefused

/-- **One round**, from a barred sleeper to one. -/
theorem Barred.round (h : Barred b c w s) (hre : Reclaims hd c) (hconf : claimsConflict w c = true)
    (hi : s.waiting[i]? = some w) :
    Round b hd w c s (s.next hd c) (s.barredAgain i w hd c) ∧
      Barred b (s.next hd c) w (s.barredAgain i w hd c) := by
  have hback := h.release hre.owner
  have hwake := h.signal hi
  have hagain := h.reclaim hre (i := i)
  have hlook := h.recheck hre hconf (i := i)
  have hsleeps : w ∈ (s.barredAgain i w hd c).waiting :=
    List.mem_append_right _ (List.mem_singleton_self w)
  have hround : Round b hd w c s (s.next hd c) (s.barredAgain i w hd c) :=
    .mk h.granted hback rfl hi hwake hagain rfl ⟨hre.owner.symm, rfl, rfl, rfl⟩
      List.getElem?_concat_length hlook hsleeps
  have hledger : LedgerOk (s.barredAgain i w hd c) := by
    have h1 := (h.ledger.step hback.1.1 hback.1.2.2 hback.2).1
    have h2 := (h1.step hwake.1.1 hwake.1.2.2 hwake.2).1
    have h3 := (h2.step hagain.1.1 hagain.1.2.2 hagain.2).1
    exact (h3.step hlook.1.1 hlook.1.2.2 hlook.2).1
  refine ⟨hround, hledger, entries_nextList h, hsleeps, ?_⟩
  · refine h.removable.imp_right fun hlt => ?_
    show s.list.count - 1 + 1 < s.list.capacity
    have hcount := h.count
    omega

/-- The next claim is as easy to get back. -/
theorem Reclaims.next (hre : Reclaims hd c) : Reclaims hd (s.next hd c) :=
  ⟨rfl, hre.check, hre.inRange, hre.pos⟩

theorem Barred.rounds (hre : Reclaims hd c) (hconf : claimsConflict w c = true)
    (h : Barred b c w s) (n : Nat) :
    ∃ c' s', Overtaken b hd w c s n c' s' ∧ Barred b c' w s' ∧ Reclaims hd c' ∧
      claimsConflict w c' = true := by
  induction n with
  | zero => exact ⟨c, s, .none, h, hre, hconf⟩
  | succ n ih =>
    obtain ⟨d, t, hrun, ht, hre', hconf'⟩ := ih
    obtain ⟨i, hi⟩ := List.mem_iff_getElem?.mp ht.waits
    obtain ⟨hround, hbarred⟩ := ht.round hre' hconf' hi
    exact ⟨_, _, hrun.round hround, hbarred, hre'.next, (conflict_next hre'.owner).trans hconf'⟩

/-- **There is no bound on overtaking.** When a request sleeps and the claim it conflicts with is the only
one there is, its holder can give the claim back and take it again any number of times, always before the
sleeper that is woken for it, and at the end the sleeper sleeps. -/
theorem unbounded_overtaking {raw : ClaimList} {capacity : Nat} (hcap : capacity < 2 ^ 31)
    (hr : Reach (ClaimSys.step b) (CleanStep b) (init raw capacity) s)
    (honly : s.list.entries = [c]) (hwaits : w ∈ s.waiting) (hconf : claimsConflict w c = true)
    (hroom : s.Removable b) (hre : Reclaims hd c) (n : Nat) :
    ∃ c' s', Overtaken b hd w c s n c' s' ∧ s'.granted = [c'] ∧ w ∈ s'.waiting := by
  have hex : ExclusionOk s :=
    hr.invariant (exclusionOk_init hcap) fun _ _ _ h hg hs => h.step hg.1 hg.2.1 hg.2.2 hs
  obtain ⟨c', s', hrun, hbarred, -⟩ := Barred.rounds hre hconf ⟨hex.ledger, honly, hwaits, hroom⟩ n
  exact ⟨c', s', hrun, hbarred.granted, hbarred.waits⟩

/-- Two writers, of which the second waits a thousand times. -/
theorem overtaken_writer : ∃ (s s' : ClaimSys) (c c' : MemoryClaim), ∃ w ∈ s.waiting,
    Overtaken ⟨false⟩ ⟨1, 4096, .readWrite⟩ w c s 1000 c' s' ∧ w ∈ s'.waiting := by
  have h1 : Reach (ClaimSys.step ⟨false⟩) (CleanStep ⟨false⟩) (init zeroList pageCapacity) _ :=
    .next (a := .claim ⟨1, 4096, .readWrite⟩ .success .readWrite 0 32) .init
      ⟨trivial, by decide, fun _ _ _ => by decide⟩ rfl
  have h2 : Reach (ClaimSys.step ⟨false⟩) (CleanStep ⟨false⟩) (init zeroList pageCapacity) _ :=
    .next (a := .claim ⟨2, 4096, .readWrite⟩ .success .readWrite 0 32) h1
      ⟨trivial, by decide, fun _ _ _ => by decide⟩ rfl
  have hre : Reclaims ⟨1, 4096, .readWrite⟩ ⟨0, 1, .readWrite, 0, 32⟩ :=
    ⟨rfl, by decide, by decide, by decide⟩
  obtain ⟨c', s', hrun, -, hw⟩ := unbounded_overtaking (by decide) h2 (w := ⟨1, 2, .readWrite, 0, 32⟩)
    (by decide) (by decide) (by decide) (.inr (by decide)) hre 1000
  exact ⟨_, s', _, c', _, by decide, hrun, hw⟩

end ClaimSys

end Ipm
