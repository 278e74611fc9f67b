import Ipm.Claim.Deadlock
import Ipm.Claim.Disjoint
import Ipm.Lib.ReadersWriter

/-!
# What the claim list comes to

`claims_conflict` asks where two ranges are, and then answers the same whatever they are
(`Claim/Disjoint.lean`). So the list is not a lock on regions but a readers-writer lock on the whole
block, with handles as owners: that is all a clean run of it does, and all its admission test looks at,
beside the room in the list (`readersWriter_of_clean`).

It follows that there is one way to deadlock, up to the room in the list: to ask for writing while one
still has something, when another reader does the same. Handles that ask to write only while they have
nothing never get stuck (`not_stuck_of_noUpgrade`), in whatever order they ask for their regions.
-/

set_option autoImplicit false

namespace Ipm

open Lib

/-- A claim, without its region. -/
def MemoryClaim.holder (c : MemoryClaim) : Holder UInt64 :=
  { owner := c.procId, writes := decide (c.access = .readWrite) }

variable {b : Build} {claim e : MemoryClaim}

theorem not_bothRead_iff :
    ¬ claim.BothRead e ↔ claim.access = .readWrite ∨ e.access = .readWrite := by
  rw [MemoryClaim.BothRead]
  cases claim.access <;> cases e.access <;> decide

/-- **Regions do not matter**: what `claims_conflict` says is what a readers-writer lock says. -/
theorem claimsConflict_iff_excludes (hclaim : claim.NoWrap) (he : e.NoWrap) :
    claimsConflict claim e = true ↔ claim.holder.Excludes e.holder := by
  by_cases hproc : claim.procId = e.procId
  · rw [claimsConflict_own hproc]
    exact ⟨nofun, fun h => absurd hproc h.1⟩
  · rw [← Bool.not_eq_false, claimsConflict_eq_false_iff hproc hclaim he, not_bothRead_iff]
    simp [Holder.Excludes, MemoryClaim.holder, hproc]

namespace ClaimSys

variable {s s' : ClaimSys} {a : ClaimEvent}

/-- The lock that the granted claims are. -/
def holders (s : ClaimSys) : Multiset (Holder UInt64) :=
  (s.granted : Multiset MemoryClaim).map MemoryClaim.holder

theorem ExclusionOk.noWrap_granted (h : ExclusionOk s) {c : MemoryClaim} (hc : c ∈ s.granted) :
    c.NoWrap := h.noWrap c (mem_requests.mpr (.inl hc))

/-- A clean step is one of the lock. -/
theorem ExclusionOk.holders_step (h : ExclusionOk s) (hown : s.Owned a) (hin : a.InRange)
    (hclean : s.Clean b a) (hs : ClaimSys.step b s a = some s') :
    TableStep Holder.Excludes s.holders s'.holders := by
  have h' := h.step hown hin hclean hs
  refine (h.ledger.step hown hclean hs).2.map fun c hc d hd hexcl => ?_
  exact (claimsConflict_iff_excludes (h'.noWrap_granted hc) (h'.noWrap_granted hd)).mpr hexcl

/-- The admission test asks the lock, and for room. -/
theorem ExclusionOk.admits_iff_free (h : ExclusionOk s) (hclaim : claim.NoWrap) :
    admits s.list claim = true ↔
      (∀ e ∈ s.holders, ¬ claim.holder.Excludes e) ∧ s.list.count ≠ s.list.capacity := by
  rw [admits_iff]
  refine and_congr_left' ⟨fun hfree e he hexcl => ?_, fun hfree e he => ?_⟩
  · obtain ⟨d, hd, rfl⟩ := Multiset.mem_map.mp he
    have hconf := (claimsConflict_iff_excludes hclaim (h.noWrap_granted hd)).mpr hexcl
    rw [hfree d (h.ledger.mem_iff.mpr hd)] at hconf
    cases hconf
  · have hd := h.ledger.mem_iff.mp he
    rw [← Bool.not_eq_true, claimsConflict_iff_excludes hclaim (h.noWrap_granted hd)]
    exact hfree _ (Multiset.mem_map_of_mem _ hd)

theorem exclusionOk_of_clean {raw : ClaimList} {capacity : Nat} (hcap : capacity < 2 ^ 31)
    (hr : Reach (ClaimSys.step b) (fun s a => s.Owned a ∧ a.InRange ∧ s.Clean b a)
      (init raw capacity) s) : ExclusionOk s :=
  hr.invariant (exclusionOk_init hcap) fun _ _ _ h hg hs => h.step hg.1 hg.2.1 hg.2.2 hs

/-- **The claim list is a readers-writer lock on the whole block.** A clean run of it is a run of the lock,
and a request that does not wrap is let in exactly when the lock would let its handle in and the list has
room, wherever its region is. -/
theorem readersWriter_of_clean {raw : ClaimList} {capacity : Nat} (hcap : capacity < 2 ^ 31)
    (hr : Reach (ClaimSys.step b) (fun s a => s.Owned a ∧ a.InRange ∧ s.Clean b a)
      (init raw capacity) s) :
    Relation.ReflTransGen (TableStep Holder.Excludes) 0 s.holders ∧
      ∀ claim : MemoryClaim, claim.NoWrap → (admits s.list claim = true ↔
        (∀ e ∈ s.holders, ¬ claim.holder.Excludes e) ∧ s.list.count ≠ s.list.capacity) := by
  refine ⟨?_, fun claim hclaim => (exclusionOk_of_clean hcap hr).admits_iff_free hclaim⟩
  induction hr with
  | init => exact .refl
  | next hrun hg hs ih =>
    exact ih.tail ((exclusionOk_of_clean hcap hrun).holders_step hg.1 hg.2.1 hg.2.2 hs)

/-- A reader beside a reader. -/
theorem readersWriter_two_readers :
    ∃ s : ClaimSys, s.holders = {⟨2, false⟩, ⟨1, false⟩} ∧
      Relation.ReflTransGen (TableStep Holder.Excludes) 0 s.holders ∧
      ∀ claim : MemoryClaim, claim.NoWrap → (admits s.list claim = true ↔
        (∀ e ∈ s.holders, ¬ claim.holder.Excludes e) ∧ s.list.count ≠ s.list.capacity) := by
  let G : ClaimSys → ClaimEvent → Prop := fun s a => s.Owned a ∧ a.InRange ∧ s.Clean ⟨false⟩ a
  have h1 : Reach (ClaimSys.step ⟨false⟩) G (init zeroList pageCapacity) _ :=
    .next (a := .claim ⟨1, 4096, .readWrite⟩ .success .readOnly 0 32) .init
      ⟨trivial, by decide, fun _ _ _ => by decide⟩ rfl
  have h2 : Reach (ClaimSys.step ⟨false⟩) G (init zeroList pageCapacity) _ :=
    .next (a := .claim ⟨2, 4096, .readOnly⟩ .success .readOnly 16 32) h1
      ⟨trivial, by decide, fun _ _ _ => by decide⟩ rfl
  exact ⟨_, rfl, readersWriter_of_clean (by decide) h2⟩

/-! ## Upgrades -/

/-- A handle asks for writing only when it has nothing. -/
def NoUpgrade (s : ClaimSys) : ClaimEvent → Prop
  | .claim h _ access _ _ => access = .readWrite → ∀ c ∈ s.granted, c.procId ≠ h.accessId
  | _ => True

/-- Two claims of different handles both read. -/
theorem ExclusionOk.bothRead (h : ExclusionOk s) {c d : MemoryClaim} (hc : c ∈ s.granted)
    (hd : d ∈ s.granted) (hproc : c.procId ≠ d.procId) : c.BothRead d := by
  have hconf : ¬ claimsConflict c d = true := h.compatible c hc d hd
  rw [Bool.not_eq_true] at hconf
  exact (claimsConflict_eq_false_iff hproc (h.noWrap_granted hc) (h.noWrap_granted hd)).mp hconf

theorem noUpgrade_iff_asks : NoUpgrade s a ↔
    Asks (fun w c => w.access = .readWrite → c.procId ≠ w.procId) s a := by
  cases a with
  | claim h lock access offset count =>
    exact ⟨fun hup c hc hw => hup hw c hc, fun hup hw c hc => hup c hc hw⟩
  | _ => rfl

variable {gone : UInt64 → Prop} {T : UInt64 → Bool}

/-- A request that the claims of others stop while the list has room is stopped by a conflict. -/
theorem BlockedWithin.conflict (h : LedgerOk s) (hroom : s.list.count ≠ s.list.capacity)
    {w : MemoryClaim} (hb : BlockedWithin id T s w) :
    ∃ c ∈ s.granted, T c.procId = true ∧ claimsConflict w c = true := by
  rcases hb with ⟨c, hc, hconf⟩ | hfull
  · exact ⟨c, (mem_ofThreads.mp hc).1, (mem_ofThreads.mp hc).2, hconf⟩
  · have hcount : s.list.count = s.granted.length := by
      rw [← s.list.length_entries]
      exact h.exact.length_eq
    have hle := List.length_filter_le (fun c : MemoryClaim => T (id c.procId)) s.granted
    have hcap := h.le_capacity
    rw [ofThreads] at hfull
    omega

/-- **Only upgrades deadlock.** When every handle makes one call at a time and asks for writing only while
it has nothing, no set of handles that are still there is ever stuck while the list has room. -/
theorem not_stuck_of_noUpgrade {raw : ClaimList} {capacity : Nat} (hcap : capacity < 2 ^ 31)
    (hr : Reach (ClaimSys.step b) (fun s a => (s.Owned a ∧ a.InRange ∧ s.Clean b a) ∧
      OneCall id gone s a ∧ NoUpgrade s a) (init raw capacity) s)
    (hT : ∃ t, T t = true) (hthere : ∀ t, T t = true → ¬ gone t)
    (hroom : s.list.count ≠ s.list.capacity) : ¬ Stuck id gone T s := by
  have hex : ExclusionOk s := exclusionOk_of_clean hcap (hr.mono fun _ _ h => h.1)
  obtain ⟨hl, hcalls, -⟩ := callsOk_of_clean
    (R := fun w c => w.access = .readWrite → c.procId ≠ w.procId) (fun _ _ hne _ => hne) hcap
    (hr.mono fun _ _ h => ⟨⟨h.1.1, h.1.2.2⟩, h.2.1, noUpgrade_iff_asks.mp h.2.2⟩)
  intro h
  -- everybody in the set waits for somebody in the set
  have hwaits : ∀ t, T t = true → ∃ w ∈ s.pending, w.procId = t ∧
      ∃ c ∈ s.granted, T c.procId = true ∧ claimsConflict w c = true := by
    intro t ht
    obtain ⟨w, hw, rfl⟩ := (h.waits t ht).resolve_left (hthere t ht)
    exact ⟨w, hw, rfl, (h.blocked w (mem_ofThreads.mpr ⟨hw, ht⟩)).conflict hl hroom⟩
  obtain ⟨t, ht⟩ := hT
  obtain ⟨-, -, -, c, hc, hcT, -⟩ := hwaits t ht
  -- whoever has a claim asks to read, and is stopped by a writer
  obtain ⟨w, hw, hwc, d, hd, -, hconf⟩ := hwaits c.procId hcT
  have hread : w.access = .readOnly := by
    cases hacc : w.access with
    | readOnly => rfl
    | readWrite => exact absurd hwc.symm (hcalls.held w hw c hc hacc)
  have hproc : w.procId ≠ d.procId := fun heq => by
    rw [claimsConflict_own heq] at hconf
    cases hconf
  have hdread := (hex.bothRead hc hd (hwc ▸ hproc)).2
  rw [claimsConflict, if_neg hproc, if_pos ⟨hread, hdread⟩] at hconf
  cases hconf

/-- A reader takes a second region, and a writer waits for it. -/
theorem not_stuck_of_noUpgrade_second_region :
    ∃ s : ClaimSys, s.granted.length = 2 ∧ s.waiting.length = 1 ∧
      ¬ Stuck id (fun _ => False) (fun t => t = 1 ∨ t = 2) s := by
  let G : ClaimSys → ClaimEvent → Prop := fun s a =>
    (s.Owned a ∧ a.InRange ∧ s.Clean ⟨false⟩ a) ∧ OneCall id (fun _ => False) s a ∧ NoUpgrade s a
  -- a call while nobody waits
  have hcall : ∀ (s : ClaimSys) h access offset count, s.pending = [] →
      OneCall id (fun _ => False) s (.claim h .success access offset count) := by
    intro s h access offset count hnone
    constructor <;> simp [hnone]
  have h1 : Reach (ClaimSys.step ⟨false⟩) G (init zeroList pageCapacity) _ :=
    .next (a := .claim ⟨1, 4096, .readWrite⟩ .success .readOnly 0 32) .init
      ⟨⟨trivial, by decide, fun _ _ _ => by decide⟩, hcall _ _ _ _ _ rfl, nofun⟩ rfl
  have h2 : Reach (ClaimSys.step ⟨false⟩) G (init zeroList pageCapacity) _ :=
    .next (a := .claim ⟨1, 4096, .readWrite⟩ .success .readOnly 32 32) h1
      ⟨⟨trivial, by decide, fun _ _ _ => by decide⟩, hcall _ _ _ _ _ rfl, nofun⟩ rfl
  have h3 : Reach (ClaimSys.step ⟨false⟩) G (init zeroList pageCapacity) _ :=
    .next (a := .claim ⟨2, 4096, .readWrite⟩ .success .readWrite 64 32) h2
      ⟨⟨trivial, by decide, fun _ _ _ => by decide⟩, hcall _ _ _ _ _ rfl,
        fun _ => by decide⟩ rfl
  exact ⟨_, by decide, by decide,
    not_stuck_of_noUpgrade (by decide) h3 ⟨1, by decide⟩ (fun _ _ h => h) (by decide)⟩

end ClaimSys

end Ipm
