import Ipm.Claim.Actors
import Ipm.Claim.Wakeup
import Ipm.Lib.WaitFor

/-!
# Deadlocks, and claims nobody gives back

A thread that sleeps in `ipm_memory_claim_region` does nothing else, so the claims it has stay, and
whoever needs those sleeps as well. The same goes for the claims of a process that is gone. The
library does not notice: a set of threads that are gone, or wait for claims of threads in the set,
stays as it is through every clean run in which nobody calls
`ipm_memory_remove_all_active_claims` (`stuck_forever`). One thread is enough, with two handles.

In the other direction, a system that has come to rest is stuck for that reason alone: without a
wakeup lost, with every claim in the hands of a sleeper and room in the list, some threads wait for
each other in a circle (`deadlock_of_stalled`). With every claim given back nobody is left asleep
(`idle_of_drained`). And threads that ask for a region only while they have none cannot come to this
(`not_stuck_of_frugal`).

Access ids are handles; `thread` says whose a handle is, and `gone` which threads will not move any
more.
-/

set_option autoImplicit false

namespace Ipm

open Lib

/-- The handle that makes a new call. -/
def ClaimEvent.caller : ClaimEvent → Option UInt64
  | .claim h _ _ _ _ => some h.accessId
  | .recheck _ => none
  | .waitFails _ => none
  | .spurious _ => none
  | .signal _ => none
  | .releaseRegion h _ _ => some h.accessId
  | .releaseAll h _ => some h.accessId
  | .removeAll _ => none
  | .close h _ => some h.accessId

namespace ClaimSys

/-- The requests that have not been granted: asleep, or woken and about to look again. -/
def pending (s : ClaimSys) : List MemoryClaim := s.waiting ++ s.woken

variable {τ : Type} (thread : UInt64 → τ) (gone : τ → Prop)

/-- A new call comes from a thread that is there, and that is in no other call. -/
structure OneCall (s : ClaimSys) (a : ClaimEvent) : Prop where
  there : ∀ id, a.caller = some id → ¬ gone (thread id)
  free : ∀ id, a.caller = some id → ∀ w ∈ s.pending, thread w.procId ≠ thread id

/-- ... and nobody removes all claims. -/
structure Sequential (s : ClaimSys) (a : ClaimEvent) : Prop extends OneCall thread gone s a where
  keeps : ∀ lock, a ≠ .removeAll lock

variable (T : τ → Bool)

/-- The claims and requests of the threads in `T`. -/
def ofThreads (l : List MemoryClaim) : List MemoryClaim := l.filter fun c => T (thread c.procId)

/-- A request that the claims of the threads in `T` would block on their own: by a conflict, or by
filling the list. -/
def BlockedWithin (s : ClaimSys) (w : MemoryClaim) : Prop :=
  (∃ c ∈ ofThreads thread T s.granted, claimsConflict w c = true) ∨
    s.list.capacity ≤ (ofThreads thread T s.granted).length

/-- A set of threads with no way out: each is gone, or has a request that the set blocks. -/
structure Stuck (s : ClaimSys) : Prop where
  waits : ∀ t, T t = true → gone t ∨ ∃ w ∈ s.pending, thread w.procId = t
  blocked : ∀ w ∈ ofThreads thread T s.pending, BlockedWithin thread T s w

variable {thread gone T} {b : Build} {s s' : ClaimSys} {a : ClaimEvent} {claim w : MemoryClaim}

/-! ## One step -/

theorem mem_ofThreads {l : List MemoryClaim} {c : MemoryClaim} :
    c ∈ ofThreads thread T l ↔ c ∈ l ∧ T (thread c.procId) = true := List.mem_filter

/-- Nobody of the set makes a new call. -/
theorem Stuck.not_caller {id : UInt64} (h : Stuck thread gone T s)
    (hseq : Sequential thread gone s a) (ha : a.caller = some id) : T (thread id) = false := by
  rw [Bool.eq_false_iff]
  intro hT
  rcases h.waits (thread id) hT with hgone | ⟨w, hw, hthread⟩
  · exact hseq.there id ha hgone
  · exact hseq.free id ha w hw hthread

/-- Claims of the set are listed, and what they block is refused. -/
theorem BlockedWithin.admits_eq_false (hl : LedgerOk s) (h : BlockedWithin thread T s w) :
    admits s.list w = false := by
  apply admits_eq_false_iff.mpr
  rcases h with ⟨c, hc, hconf⟩ | hfull
  · exact .inl ⟨c, hl.mem_iff.mpr (mem_ofThreads.mp hc).1, hconf⟩
  · right
    have hcount : s.list.count = s.granted.length := by
      rw [← s.list.length_entries]
      exact hl.exact.length_eq
    have hle := List.length_filter_le (fun c => T (thread c.procId)) s.granted
    have hcap := hl.le_capacity
    rw [ofThreads] at hfull
    omega

/-- What a step leaves to the set, as its threads see it. -/
structure Leaves (thread : UInt64 → τ) (T : τ → Bool) (s s' : ClaimSys) : Prop where
  granted : ofThreads thread T s'.granted = ofThreads thread T s.granted
  pending : (ofThreads thread T s'.pending).Perm (ofThreads thread T s.pending)
  capacity : s'.list.capacity = s.list.capacity

theorem Leaves.refl (s : ClaimSys) : Leaves thread T s s := ⟨rfl, .refl _, rfl⟩

theorem Leaves.trans {u : ClaimSys} (h : Leaves thread T s s') (h' : Leaves thread T s' u) :
    Leaves thread T s u :=
  ⟨h'.granted.trans h.granted, h'.pending.trans h.pending, h'.capacity.trans h.capacity⟩

/-- A set that is left alone stays stuck. -/
theorem Stuck.leaves (h : Stuck thread gone T s) (hl : Leaves thread T s s') :
    Stuck thread gone T s' := by
  refine ⟨fun t ht => ?_, fun w hw => ?_⟩
  · rcases h.waits t ht with hgone | ⟨w, hw, rfl⟩
    · exact .inl hgone
    · have hmem := hl.pending.mem_iff.mpr (mem_ofThreads.mpr ⟨hw, ht⟩)
      exact .inr ⟨w, (mem_ofThreads.mp hmem).1, rfl⟩
  · rw [BlockedWithin, hl.granted, hl.capacity]
    exact h.blocked w (hl.pending.mem_iff.mp hw)

theorem ofThreads_append (l₁ l₂ : List MemoryClaim) :
    ofThreads thread T (l₁ ++ l₂) = ofThreads thread T l₁ ++ ofThreads thread T l₂ :=
  List.filter_append ..

theorem ofThreads_cons_of_false (l : List MemoryClaim) (h : T (thread claim.procId) = false) :
    ofThreads thread T (claim :: l) = ofThreads thread T l := List.filter_cons_of_neg (by simp [h])

/-- A turn for a request of somebody else, which is in neither list. -/
theorem leaves_turn_of_other {t : ClaimSys} (hcap : t.list.count ≤ t.list.capacity)
    (hlt : t.list.capacity < 2 ^ 31) (hT : T (thread claim.procId) = false)
    (hs : turn b claim t = some s') : Leaves thread T t s' := by
  rcases turn_cases hcap hlt hs with ⟨-, l, -, -, hcapl, rfl⟩ | ⟨-, rfl⟩
  · exact ⟨ofThreads_cons_of_false _ hT, .refl _, hcapl⟩
  · refine ⟨rfl, ?_, rfl⟩
    show (ofThreads thread T ((t.waiting ++ [claim]) ++ t.woken)).Perm _
    rw [List.append_assoc, List.singleton_append, ofThreads_append, ofThreads_cons_of_false _ hT,
      ← ofThreads_append]
    rfl

/-- A request of the set is refused, and is among the sleepers afterwards. -/
theorem leaves_turn_of_blocked {t : ClaimSys} (hadm : admits t.list claim = false)
    (hs : turn b claim t = some s') :
    s' = { t with waiting := t.waiting ++ [claim] } := by
  unfold turn claimRegionTurn at hs
  rw [if_neg (by simp [hadm])] at hs
  exact (Option.some.inj hs).symm

/-- Waking up keeps a request pending. -/
theorem perm_pending_wake {i : Nat} (hget : s.waiting[i]? = some claim) :
    (s.waiting.eraseIdx i ++ (s.woken ++ [claim])).Perm s.pending := by
  obtain ⟨hi, rfl⟩ := List.getElem?_eq_some_iff.mp hget
  rw [← List.append_assoc]
  refine (List.perm_append_singleton _ _).trans ?_
  exact (List.getElem_cons_eraseIdx_perm hi).append_right s.woken

/-- A request that looks again is one of the pending ones. -/
theorem perm_pending_recheck {i : Nat} (hget : s.woken[i]? = some claim) :
    (claim :: (s.waiting ++ s.woken.eraseIdx i)).Perm s.pending := by
  obtain ⟨hi, rfl⟩ := List.getElem?_eq_some_iff.mp hget
  refine List.perm_middle.symm.trans ?_
  exact (List.getElem_cons_eraseIdx_perm hi).append_left s.waiting

theorem perm_ofThreads {l₁ l₂ : List MemoryClaim} (h : l₁.Perm l₂) :
    (ofThreads thread T l₁).Perm (ofThreads thread T l₂) := h.filter _

/-- A removing call leaves the requests alone, and the size of the array. -/
theorem removal_frame {α : Type} {o : Outcome ClaimList α} {k : α → ClaimSys → ClaimSys}
    (hk : ∀ r t, (k r t).list = t.list ∧ (k r t).pending = t.pending)
    (ho : o.shared.capacity = s.list.capacity) (hs : s.settle o k = some s') :
    s'.list.capacity = s.list.capacity ∧ s'.pending = s.pending := by
  cases o with
  | ret r l =>
    cases hs
    rw [(hk r _).1, (hk r _).2]
    exact ⟨ho, rfl⟩
  | stop w l =>
    cases w with
    | assertion => cases hs; exact ⟨ho, rfl⟩
    | fault => cases hs
    | spin => cases hs

theorem giveBack_frame {lock : IpmResult} {accessId claimId : UInt64}
    (hs : giveBack b lock accessId claimId s = some s') :
    s'.list.capacity = s.list.capacity ∧ s'.pending = s.pending := by
  refine removal_frame (fun r t => by split <;> exact ⟨rfl, rfl⟩) ?_ hs
  unfold ipmMemoryReleaseRegion
  split
  · rfl
  · exact (claimRemoveFromList_decCount b claimId s.list).2

theorem purge_frame {lock : IpmResult} {id : UInt64} (hcount : s.list.count < 2 ^ 31)
    (hs : purge b lock id s = some s') :
    s'.list.capacity = s.list.capacity ∧ s'.pending = s.pending := by
  refine removal_frame (fun r t => by split <;> exact ⟨rfl, rfl⟩) ?_ hs
  unfold ipmMemoryReleaseAll
  split
  · rfl
  · rw [Outcome.shared_andThen_ret]
    exact (releaseAllLoop_shared _ _ _ hcount).2

theorem clear_frame {lock : IpmResult} (hcount : s.list.count < 2 ^ 31)
    (hs : clear b lock s = some s') :
    s'.list.capacity = s.list.capacity ∧ s'.pending = s.pending := by
  refine removal_frame (fun r t => by split <;> exact ⟨rfl, rfl⟩) ?_ hs
  unfold ipmMemoryRemoveAllActiveClaims
  split
  · rfl
  · rw [Outcome.shared_andThen_ret]
    exact (removeAllLoop_shared _ _ hcount).2

/-- The array keeps its size. -/
theorem capacity_step (hle : s.list.count ≤ s.list.capacity) (hcap : s.list.capacity < 2 ^ 31)
    (hs : ClaimSys.step b s a = some s') : s'.list.capacity = s.list.capacity := by
  have hcount : s.list.count < 2 ^ 31 := lt_of_le_of_lt hle hcap
  have hturn : ∀ (t : ClaimSys) (claim : MemoryClaim), t.list.count = s.list.count →
      t.list.capacity = s.list.capacity → turn b claim t = some s' →
        s'.list.capacity = s.list.capacity := by
    intro t claim hc hcap' ht
    rcases turn_cases (by omega) (by omega) ht with ⟨-, l, -, -, hl, rfl⟩ | ⟨-, rfl⟩
    · exact hl.trans hcap'
    · exact hcap'
  cases a with
  | claim hd lock access offset count =>
    simp only [ClaimSys.step] at hs
    split at hs
    · cases hs; rfl
    split at hs
    · cases hs; rfl
    split at hs
    · cases hs; rfl
    · exact hturn { s with list := s.list.takeId } _ rfl rfl hs
  | recheck i =>
    obtain ⟨claim, -, ht⟩ := Option.bind_eq_some_iff.mp hs
    exact hturn { s with woken := s.woken.eraseIdx i } claim rfl rfl ht
  | waitFails i | spurious i =>
    obtain ⟨claim, -, rfl⟩ := Option.map_eq_some_iff.mp hs
    rfl
  | signal i =>
    simp only [ClaimSys.step] at hs
    split at hs
    · cases hs
    split at hs
    · cases hs; rfl
    · obtain ⟨claim, -, rfl⟩ := Option.map_eq_some_iff.mp hs
      rfl
  | releaseRegion hd lock claimId => exact (giveBack_frame hs).1
  | releaseAll hd lock | close hd lock => exact (purge_frame hcount hs).1
  | removeAll lock => exact (clear_frame hcount hs).1

/-- A new call of a thread outside the set that removes claims. -/
theorem Stuck.leaves_removal (h : Stuck thread gone T s)
    (hseq : Sequential thread gone s a) (hact : s.actor a = a.caller)
    (hs : ClaimSys.step b s a = some s')
    (hframe : s'.list.capacity = s.list.capacity ∧ s'.pending = s.pending) :
    Leaves thread T s s' := by
  refine ⟨(granted_cases hs).filter_eq (fun c hc => ?_) hseq.keeps, ?_, hframe.1⟩
  · rw [hact] at hc
    exact h.not_caller hseq hc
  · rw [hframe.2]

/-- **A step leaves a stuck set alone.** Its threads make no call, its requests are refused, and
nobody else takes its claims. -/
theorem Stuck.step (hl : LedgerOk s) (h : Stuck thread gone T s) (hclean : s.Clean b a)
    (hseq : Sequential thread gone s a) (hs : ClaimSys.step b s a = some s') :
    Leaves thread T s s' := by
  have hcount : s.list.count < 2 ^ 31 := lt_of_le_of_lt hl.le_capacity hl.capacity_lt
  cases a with
  | claim hd lock access offset count =>
    simp only [ClaimSys.step] at hs
    split at hs
    · cases hs; exact .refl s
    split at hs
    · cases hs; exact .refl s
    split at hs
    · cases hs; exact .refl s
    · have hT : T (thread hd.accessId) = false := h.not_caller hseq rfl
      have hleft : Leaves thread T { s with list := s.list.takeId } s' :=
        leaves_turn_of_other hl.le_capacity hl.capacity_lt hT hs
      exact ⟨hleft.granted, hleft.pending, hleft.capacity⟩
  | recheck i =>
    obtain ⟨claim, hget, hturn⟩ := Option.bind_eq_some_iff.mp hs
    have hperm := perm_pending_recheck hget
    cases hT : T (thread claim.procId) with
    | false =>
      have hleft : Leaves thread T { s with woken := s.woken.eraseIdx i } s' :=
        leaves_turn_of_other hl.le_capacity hl.capacity_lt hT hturn
      refine ⟨hleft.granted, hleft.pending.trans ?_, hleft.capacity⟩
      have hall : (ofThreads thread T (claim :: _)).Perm _ := perm_ofThreads hperm
      rwa [ofThreads_cons_of_false _ hT] at hall
    | true =>
      -- it is refused, and sleeps again
      have hmem : claim ∈ ofThreads thread T s.pending :=
        mem_ofThreads.mpr ⟨hperm.mem_iff.mp List.mem_cons_self, hT⟩
      have hadm := (h.blocked claim hmem).admits_eq_false hl
      obtain rfl := leaves_turn_of_blocked (t := { s with woken := s.woken.eraseIdx i }) hadm hturn
      refine ⟨rfl, perm_ofThreads (List.Perm.trans ?_ hperm), rfl⟩
      exact List.perm_append_comm.append_right _
  | waitFails i => exact absurd hclean id
  | spurious i =>
    obtain ⟨claim, hget, rfl⟩ := Option.map_eq_some_iff.mp hs
    exact ⟨rfl, perm_ofThreads (perm_pending_wake hget), rfl⟩
  | signal i =>
    simp only [ClaimSys.step] at hs
    split at hs
    · cases hs
    split at hs
    · cases hs; exact ⟨rfl, .refl _, rfl⟩
    · obtain ⟨claim, hget, rfl⟩ := Option.map_eq_some_iff.mp hs
      exact ⟨rfl, perm_ofThreads (perm_pending_wake hget), rfl⟩
  | releaseRegion hd lock claimId => exact h.leaves_removal hseq rfl hs (giveBack_frame hs)
  | releaseAll hd lock => exact h.leaves_removal hseq rfl hs (purge_frame hcount hs)
  | removeAll lock => exact absurd rfl (hseq.keeps lock)
  | close hd lock => exact h.leaves_removal hseq rfl hs (purge_frame hcount hs)

/-! ## Runs -/

/-- **Nothing gets a stuck set going again.** In every clean run from there on its requests stay
pending and its claims stay granted. -/
theorem stuck_forever {raw : ClaimList} {capacity : Nat} (hcap : capacity < 2 ^ 31)
    (hr : Reach (ClaimSys.step b) (fun s a => s.Owned a ∧ s.Clean b a) (init raw capacity) s)
    (h : Stuck thread gone T s)
    (hr' : Reach (ClaimSys.step b)
      (fun s a => (s.Owned a ∧ s.Clean b a) ∧ Sequential thread gone s a) s s') :
    Stuck thread gone T s' ∧ Leaves thread T s s' := by
  have hl : LedgerOk s := hr.invariant (ledgerOk_init hcap) fun _ _ _ h hg hs =>
    (h.step hg.1 hg.2 hs).1
  have hall := hr'.invariant (I := fun u => LedgerOk u ∧ Stuck thread gone T u ∧ Leaves thread T s u)
    ⟨hl, h, .refl s⟩ fun u a u' hu hg hs => ?_
  · exact hall.2
  · obtain ⟨hlu, hstuck, hleft⟩ := hu
    have hstep := hstuck.step hlu hg.1.2 hg.2 hs
    exact ⟨(hlu.step hg.1.1 hg.1.2 hs).1, hstuck.leaves hstep, hleft.trans hstep⟩

/-- One thread claims the same bytes through two handles, and looks again in vain. -/
theorem stuck_forever_alone :
    ∃ s s', s.waiting.length = 1 ∧ s'.waiting.length = 1 ∧
      Reach (ClaimSys.step ⟨false⟩) (fun s a => (s.Owned a ∧ s.Clean ⟨false⟩ a) ∧
        Sequential (fun _ => ()) (fun _ => False) s a) s s' ∧
      Stuck (fun _ => ()) (fun _ => False) (fun _ => true) s' ∧
      Leaves (fun _ => ()) (fun _ => true) s s' := by
  have h1 : Reach (ClaimSys.step ⟨false⟩) (fun s a => s.Owned a ∧ s.Clean ⟨false⟩ a)
      (init zeroList pageCapacity) _ :=
    .next (a := .claim ⟨1, 4096, .readWrite⟩ .success .readWrite 0 32) .init
      ⟨trivial, fun _ _ _ => by decide⟩ rfl
  have h2 : Reach (ClaimSys.step ⟨false⟩) (fun s a => s.Owned a ∧ s.Clean ⟨false⟩ a)
      (init zeroList pageCapacity) _ :=
    .next (a := .claim ⟨2, 4096, .readWrite⟩ .success .readWrite 0 32) h1
      ⟨trivial, fun _ _ _ => by decide⟩ rfl
  -- from there on
  have hfrom : ∀ {s₁}, Reach (ClaimSys.step ⟨false⟩) (fun s a => s.Owned a ∧ s.Clean ⟨false⟩ a)
      (init zeroList pageCapacity) s₁ → Reach (ClaimSys.step ⟨false⟩)
        (fun s a => (s.Owned a ∧ s.Clean ⟨false⟩ a) ∧
          Sequential (fun _ => ()) (fun _ => False) s a) s₁ s₁ := fun _ => .init
  have hawake : ∀ (s : ClaimSys) i, Sequential (fun _ => ()) (fun _ => False) s (.spurious i) ∧
      Sequential (fun _ => ()) (fun _ => False) s (.recheck i) := by
    intro s i
    constructor
    · exact ⟨⟨fun _ h => (by cases h), fun _ h => (by cases h)⟩, fun _ h => (by cases h)⟩
    · exact ⟨⟨fun _ h => (by cases h), fun _ h => (by cases h)⟩, fun _ h => (by cases h)⟩
  have h3 : Reach (ClaimSys.step ⟨false⟩) (fun s a => (s.Owned a ∧ s.Clean ⟨false⟩ a) ∧
      Sequential (fun _ => ()) (fun _ => False) s a) _ _ :=
    .next (a := .spurious 0) (hfrom h2) ⟨⟨trivial, trivial⟩, (hawake _ 0).1⟩ rfl
  have h4 : Reach (ClaimSys.step ⟨false⟩) (fun s a => (s.Owned a ∧ s.Clean ⟨false⟩ a) ∧
      Sequential (fun _ => ()) (fun _ => False) s a) _ _ :=
    .next (a := .recheck 0) h3 ⟨⟨trivial, fun claim hclaim hadm => by
      obtain rfl := Option.some.inj hclaim
      exact absurd hadm (by decide)⟩, (hawake _ 0).2⟩ rfl
  refine ⟨_, _, by decide, by decide, h4, stuck_forever (by decide) h2 ⟨fun t _ => .inr ?_, ?_⟩ h4⟩
  · exact ⟨⟨1, 2, .readWrite, 0, 32⟩, by decide, rfl⟩
  · exact fun w hw => .inl (by revert w hw; decide)

/-! ## Coming to rest -/

/-- Neither a signal is on its way nor a request awake. -/
def Quiet (s : ClaimSys) : Prop := s.signals = 0 ∧ s.woken = []

/-- Thread `t` sleeps on a claim of thread `u`. -/
def WaitsFor (thread : UInt64 → τ) (s : ClaimSys) (t u : τ) : Prop :=
  ∃ w ∈ s.waiting, thread w.procId = t ∧
    ∃ c ∈ s.granted, thread c.procId = u ∧ claimsConflict w c = true

/-- All is quiet, and whoever has a claim sleeps. -/
structure Stalled (thread : UInt64 → τ) (s : ClaimSys) : Prop where
  quiet : s.Quiet
  asleep : ∀ c ∈ s.granted, ∃ w ∈ s.waiting, thread w.procId = thread c.procId

/-- The threads that sleep. -/
def sleepers [DecidableEq τ] (thread : UInt64 → τ) (s : ClaimSys) (t : τ) : Bool :=
  s.waiting.any fun w => thread w.procId = t

theorem sleepers_iff [DecidableEq τ] {t : τ} :
    sleepers thread s t = true ↔ ∃ w ∈ s.waiting, thread w.procId = t := by
  simp [sleepers]

/-- In a quiet state without a lost wakeup, a sleeper has a granted claim against it or a full
list. -/
theorem Quiet.reason (hq : s.Quiet) (hl : LedgerOk s) (hwake : WakeOk s) (hw : w ∈ s.waiting) :
    (∃ c ∈ s.granted, claimsConflict w c = true) ∨ s.list.count = s.list.capacity := by
  rcases hwake.noLostWakeup hq.1 hq.2 w hw with ⟨c, hc, hconf⟩ | hfull
  · exact .inl ⟨c, hl.mem_iff.mp hc, hconf⟩
  · exact .inr hfull

/-- What holds between two steps of a run that is clean and loses no wakeup. -/
theorem rest_of_clean {raw : ClaimList} {capacity : Nat} (hcap : capacity < 2 ^ 31)
    (hr : Reach (ClaimSys.step b) (fun s a => s.Owned a ∧ s.Clean b a ∧ s.Heard b a)
      (init raw capacity) s) : LedgerOk s ∧ WakeOk s ∧ s.list.capacity = capacity := by
  have h0 : WakeOk (init raw capacity) :=
    ⟨Nat.zero_le _, hcap, fun _ w hw => absurd hw List.not_mem_nil⟩
  refine hr.invariant (I := fun s => LedgerOk s ∧ WakeOk s ∧ s.list.capacity = capacity)
    ⟨ledgerOk_init hcap, h0, rfl⟩ fun s a s' h hg hs => ?_
  obtain ⟨hl, hwake, hsize⟩ := h
  refine ⟨(hl.step hg.1 hg.2.1 hs).1, hwake.step hg.2.2 hs, ?_⟩
  rw [capacity_step hl.le_capacity hl.capacity_lt hs, hsize]

/-- Everybody asleep is a stuck set: it has all the claims there are. -/
theorem Stalled.stuck [DecidableEq τ] (h : Stalled thread s) (hl : LedgerOk s) (hwake : WakeOk s) :
    Stuck thread gone (sleepers thread s) s := by
  have hall : ofThreads thread (sleepers thread s) s.granted = s.granted :=
    List.filter_eq_self.mpr fun c hc => sleepers_iff.mpr (h.asleep c hc)
  constructor
  · intro t ht
    obtain ⟨w, hw, hthread⟩ := sleepers_iff.mp ht
    exact .inr ⟨w, List.mem_append_left _ hw, hthread⟩
  · intro w hw
    have hmem : w ∈ s.waiting := by
      have hpending := (mem_ofThreads.mp hw).1
      rwa [pending, h.quiet.2, List.append_nil] at hpending
    rw [BlockedWithin, hall]
    refine (h.quiet.reason hl hwake hmem).imp_right fun hfull => ?_
    have hcount : s.list.count = s.granted.length := by
      rw [← s.list.length_entries]
      exact hl.exact.length_eq
    omega

/-- With room in the list, everybody asleep waits for somebody asleep. -/
theorem Stalled.exists_circle (h : Stalled thread s) (hl : LedgerOk s) (hwake : WakeOk s)
    (hroom : s.list.count ≠ s.list.capacity) (hne : s.waiting ≠ []) :
    ∃ t, Relation.TransGen (WaitsFor thread s) t t := by
  let S : Set τ := { t | ∃ w ∈ s.waiting, thread w.procId = t }
  have hfin : S.Finite := s.waiting.finite_toSet.image fun w : MemoryClaim => thread w.procId
  obtain ⟨w₀, hw₀⟩ := List.exists_mem_of_ne_nil _ hne
  have hout : ∀ t ∈ S, ∃ u ∈ S, WaitsFor thread s t u := by
    rintro _ ⟨w, hw, rfl⟩
    obtain ⟨c, hc, hconf⟩ := (h.quiet.reason hl hwake hw).resolve_right hroom
    exact ⟨_, h.asleep c hc, w, hw, rfl, c, hc, rfl, hconf⟩
  obtain ⟨t, -, ht⟩ := Lib.exists_circle hfin ⟨_, w₀, hw₀, rfl⟩ hout
  exact ⟨t, ht⟩

/-- **A system at rest is deadlocked.** When a clean run without lost wakeups has come to rest with
every claim in the hands of a sleeper, the sleepers are stuck, and with room in the list some of them
wait for each other in a circle. -/
theorem deadlock_of_stalled [DecidableEq τ] {raw : ClaimList} {capacity : Nat}
    (hcap : capacity < 2 ^ 31)
    (hr : Reach (ClaimSys.step b) (fun s a => s.Owned a ∧ s.Clean b a ∧ s.Heard b a)
      (init raw capacity) s)
    (h : Stalled thread s) (hne : s.waiting ≠ []) :
    Stuck thread (fun _ => False) (sleepers thread s) s ∧
      (s.list.count ≠ s.list.capacity → ∃ t, Relation.TransGen (WaitsFor thread s) t t) := by
  obtain ⟨hl, hwake, -⟩ := rest_of_clean hcap hr
  exact ⟨h.stuck hl hwake, fun hroom => h.exists_circle hl hwake hroom hne⟩

/-- Two handles of one thread: it waits for itself. -/
theorem deadlock_of_stalled_alone :
    ∃ s, s.waiting.length = 1 ∧ Stuck (fun _ => ()) (fun _ => False) (sleepers (fun _ => ()) s) s ∧
      (s.list.count ≠ s.list.capacity →
        ∃ t, Relation.TransGen (WaitsFor (fun _ => ()) s) t t) := by
  let G : ClaimSys → ClaimEvent → Prop := fun s a =>
    s.Owned a ∧ s.Clean ⟨false⟩ a ∧ s.Heard ⟨false⟩ a
  have h1 : Reach (ClaimSys.step ⟨false⟩) G (init zeroList pageCapacity) _ :=
    .next (a := .claim ⟨1, 4096, .readWrite⟩ .success .readWrite 0 32) .init
      ⟨trivial, fun _ _ _ => by decide, fun _ hne => absurd rfl hne⟩ rfl
  have h2 : Reach (ClaimSys.step ⟨false⟩) G (init zeroList pageCapacity) _ :=
    .next (a := .claim ⟨2, 4096, .readWrite⟩ .success .readWrite 0 32) h1
      ⟨trivial, fun _ _ _ => by decide, fun _ hne => absurd rfl hne⟩ rfl
  refine ⟨_, by decide, deadlock_of_stalled (by decide) h2 ⟨⟨rfl, rfl⟩, fun c hc => ?_⟩ ?_⟩
  · exact ⟨⟨1, 2, .readWrite, 0, 32⟩, by decide, rfl⟩
  · exact List.cons_ne_nil _ _

/-- With nothing claimed and room for a claim there is nothing to sleep for. -/
theorem Quiet.idle (hq : s.Quiet) (hl : LedgerOk s) (hwake : WakeOk s) (hpos : 0 < s.list.capacity)
    (hnone : s.granted = []) : s.waiting = [] := by
  refine List.eq_nil_iff_forall_not_mem.mpr fun w hw => ?_
  have hcount : s.list.count = 0 := by
    rw [← s.list.length_entries, hl.exact.length_eq, hnone]
    rfl
  rcases hq.reason hl hwake hw with ⟨c, hc, -⟩ | hfull
  · rw [hnone] at hc
    cases hc
  · omega

/-- **A system whose claims have all been given back is idle.** No request has been forgotten. -/
theorem idle_of_drained {raw : ClaimList} {capacity : Nat} (hcap : capacity < 2 ^ 31)
    (hr : Reach (ClaimSys.step b) (fun s a => s.Owned a ∧ s.Clean b a ∧ s.Heard b a)
      (init raw capacity) s)
    (hpos : 0 < capacity) (hq : s.Quiet) (hnone : s.granted = []) : s.waiting = [] := by
  obtain ⟨hl, hwake, hsize⟩ := rest_of_clean hcap hr
  exact hq.idle hl hwake (hsize.symm ▸ hpos) hnone

/-- The first of two writers hands over to the second, and both are done. -/
theorem idle_of_drained_two_writers :
    ∃ s : ClaimSys, s.list.claimCounter = 2 ∧ s.granted = [] ∧ s.waiting = [] := by
  let G : ClaimSys → ClaimEvent → Prop := fun s a =>
    s.Owned a ∧ s.Clean ⟨false⟩ a ∧ s.Heard ⟨false⟩ a
  have h1 : Reach (ClaimSys.step ⟨false⟩) G (init zeroList pageCapacity) _ :=
    .next (a := .claim ⟨1, 4096, .readWrite⟩ .success .readWrite 0 32) .init
      ⟨trivial, fun _ _ _ => by decide, fun _ hne => absurd rfl hne⟩ rfl
  have h2 : Reach (ClaimSys.step ⟨false⟩) G (init zeroList pageCapacity) _ :=
    .next (a := .claim ⟨2, 4096, .readWrite⟩ .success .readWrite 0 32) h1
      ⟨trivial, fun _ _ _ => by decide, fun _ hne => absurd rfl hne⟩ rfl
  have h3 : Reach (ClaimSys.step ⟨false⟩) G (init zeroList pageCapacity) _ :=
    .next (a := .releaseRegion ⟨1, 4096, .readWrite⟩ .success 0) h2
      ⟨by decide, fun _ => ⟨.inr (by decide), [], ⟨0, 1, .readWrite, 0, 32⟩, by decide, rfl, by decide⟩,
        fun _ => ⟨.inr (by decide), by decide⟩⟩ rfl
  have h4 : Reach (ClaimSys.step ⟨false⟩) G (init zeroList pageCapacity) _ :=
    .next (a := .signal 0) h3 ⟨trivial, trivial, fun _ claim _ w hw => by cases hw⟩ rfl
  have h5 : Reach (ClaimSys.step ⟨false⟩) G (init zeroList pageCapacity) _ :=
    .next (a := .recheck 0) h4 ⟨trivial, fun claim hclaim hadm => by
      obtain rfl := Option.some.inj hclaim
      decide, fun _ _ _ hne => absurd rfl hne⟩ rfl
  have h6 : Reach (ClaimSys.step ⟨false⟩) G (init zeroList pageCapacity) _ :=
    .next (a := .releaseRegion ⟨2, 4096, .readWrite⟩ .success 1) h5
      ⟨by decide, fun _ => ⟨.inr (by decide), [], ⟨1, 2, .readWrite, 0, 32⟩, by decide, rfl, by decide⟩,
        fun _ => ⟨.inr (by decide), by decide⟩⟩ rfl
  have h7 : Reach (ClaimSys.step ⟨false⟩) G (init zeroList pageCapacity) _ :=
    .next (a := .signal 0) h6 ⟨trivial, trivial, fun _ claim hclaim => by cases hclaim⟩ rfl
  exact ⟨_, by decide, rfl, idle_of_drained (by decide) h7 (by decide) ⟨rfl, rfl⟩ rfl⟩

/-! ## One claim at a time -/

/-- A thread asks for a region only when it has none. -/
def Frugal (thread : UInt64 → τ) (s : ClaimSys) : ClaimEvent → Prop
  | .claim h _ _ _ _ => ∀ c ∈ s.granted, thread c.procId ≠ thread h.accessId
  | _ => True

/-- A new request `w` is made only while `R w c` for all claims `c` there are. -/
def Asks (R : MemoryClaim → MemoryClaim → Prop) (s : ClaimSys) : ClaimEvent → Prop
  | .claim h _ access offset count => ∀ c ∈ s.granted, R (s.list.newClaim h access offset count) c
  | _ => True

/-- Every thread is in one call, and still asks as it was to. -/
structure CallsOk (thread : UInt64 → τ) (R : MemoryClaim → MemoryClaim → Prop) (s : ClaimSys) : Prop where
  pending : s.pending.Pairwise fun v w => thread v.procId ≠ thread w.procId
  held : ∀ w ∈ s.pending, ∀ c ∈ s.granted, R w c

variable {R : MemoryClaim → MemoryClaim → Prop}

/-- The requests are the same, and no claim has come. -/
theorem CallsOk.of_perm (h : CallsOk thread R s) (hp : s'.pending.Perm s.pending)
    (hsub : ∀ c ∈ s'.granted, c ∈ s.granted) : CallsOk thread R s' := by
  constructor
  · exact (hp.pairwise_iff fun hne => Ne.symm hne).mpr h.pending
  · exact fun w hw c hc => h.held w (hp.mem_iff.mp hw) c (hsub c hc)

/-- A removing call grants nothing. -/
theorem granted_removal {α : Type} {o : Outcome ClaimList α} {k : α → ClaimSys → ClaimSys}
    (hk : ∀ r t, (k r t).granted.Sublist t.granted) (hs : s.settle o k = some s') :
    s'.granted.Sublist s.granted := by
  cases o with
  | ret r l => cases hs; exact hk r _
  | stop w l =>
    cases w with
    | assertion => cases hs; exact List.Sublist.refl _
    | fault => cases hs
    | spin => cases hs

theorem granted_purge_sublist {lock : IpmResult} {id : UInt64} (hs : purge b lock id s = some s') :
    s'.granted.Sublist s.granted := by
  refine granted_removal (fun r t => ?_) hs
  split
  · exact List.filter_sublist
  · exact List.Sublist.refl _

theorem granted_clear_sublist {lock : IpmResult} (hs : clear b lock s = some s') :
    s'.granted.Sublist s.granted := by
  refine granted_removal (fun r t => ?_) hs
  split
  · exact List.nil_sublist _
  · exact List.Sublist.refl _

section Rule

-- what is asked for depends on the thread's own claims alone
variable (hR : ∀ w c, thread c.procId ≠ thread w.procId → R w c)
include hR

/-- A turn for a thread that is in no other call. -/
theorem CallsOk.turn {t : ClaimSys} (h : CallsOk thread R t)
    (hcap : t.list.count ≤ t.list.capacity) (hlt : t.list.capacity < 2 ^ 31)
    (hpending : ∀ w ∈ t.pending, thread claim.procId ≠ thread w.procId)
    (hgranted : ∀ c ∈ t.granted, R claim c)
    (hs : ClaimSys.turn b claim t = some s') : CallsOk thread R s' := by
  rcases turn_cases hcap hlt hs with ⟨-, l, -, -, -, rfl⟩ | ⟨-, rfl⟩
  · refine ⟨h.pending, fun w hw c hc => ?_⟩
    rcases List.mem_cons.mp hc with rfl | hc
    · exact hR w c (hpending w hw)
    · exact h.held w hw c hc
  · have hperm : (t.waiting ++ [claim] ++ t.woken).Perm (claim :: t.pending) := by
      rw [List.append_assoc]
      exact List.perm_middle
    constructor
    · refine (hperm.pairwise_iff fun hne => Ne.symm hne).mpr ?_
      exact List.pairwise_cons.mpr ⟨hpending, h.pending⟩
    · intro w hw c hc
      rcases List.mem_cons.mp (hperm.mem_iff.mp hw) with rfl | hw
      · exact hgranted c hc
      · exact h.held w hw c hc

/-- **A step of threads that ask as they are to.** -/
theorem CallsOk.step (hl : LedgerOk s) (h : CallsOk thread R s) (hclean : s.Clean b a)
    (hone : OneCall thread gone s a) (hasks : Asks R s a)
    (hs : ClaimSys.step b s a = some s') : CallsOk thread R s' := by
  have hcount : s.list.count < 2 ^ 31 := lt_of_le_of_lt hl.le_capacity hl.capacity_lt
  cases a with
  | claim hd lock access offset count =>
    simp only [ClaimSys.step] at hs
    split at hs
    · cases hs; exact h
    split at hs
    · cases hs; exact h
    split at hs
    · cases hs; exact h
    · have h' : CallsOk thread R { s with list := s.list.takeId } := ⟨h.pending, h.held⟩
      have hturn : ClaimSys.turn b (s.list.newClaim hd access offset count)
          { s with list := s.list.takeId } = some s' := hs
      refine h'.turn hR hl.le_capacity hl.capacity_lt (fun w hw => ?_) ?_ hturn
      · exact (hone.free hd.accessId rfl w hw).symm
      · exact hasks
  | recheck i =>
    obtain ⟨claim, hget, hturn⟩ := Option.bind_eq_some_iff.mp hs
    have hperm := perm_pending_recheck hget
    have hpair := (hperm.pairwise_iff fun hne => Ne.symm hne).mpr h.pending
    obtain ⟨hrest, hpair'⟩ := List.pairwise_cons.mp hpair
    have h' : CallsOk thread R { s with woken := s.woken.eraseIdx i } :=
      ⟨hpair', fun w hw => h.held w (hperm.mem_iff.mp (List.mem_cons_of_mem _ hw))⟩
    refine h'.turn hR hl.le_capacity hl.capacity_lt hrest ?_ hturn
    exact h.held claim (hperm.mem_iff.mp List.mem_cons_self)
  | waitFails i => exact absurd hclean id
  | spurious i =>
    obtain ⟨claim, hget, rfl⟩ := Option.map_eq_some_iff.mp hs
    exact h.of_perm (perm_pending_wake hget) fun _ hc => hc
  | signal i =>
    simp only [ClaimSys.step] at hs
    split at hs
    · cases hs
    split at hs
    · cases hs; exact ⟨h.pending, h.held⟩
    · obtain ⟨claim, hget, rfl⟩ := Option.map_eq_some_iff.mp hs
      exact h.of_perm (perm_pending_wake hget) fun _ hc => hc
  | releaseRegion hd lock claimId =>
    have hgranted : s'.granted.Sublist s.granted := by
      simp only [ClaimSys.step, ClaimSys.giveBack] at hs
      refine granted_removal (fun r t => ?_) hs
      split
      · exact List.eraseP_sublist
      · exact List.Sublist.refl _
    exact h.of_perm (by rw [(giveBack_frame hs).2]) hgranted.subset
  | releaseAll hd lock | close hd lock =>
    exact h.of_perm (by rw [(purge_frame hcount hs).2]) (granted_purge_sublist hs).subset
  | removeAll lock =>
    exact h.of_perm (by rw [(clear_frame hcount hs).2]) (granted_clear_sublist hs).subset

theorem callsOk_of_clean {raw : ClaimList} {capacity : Nat} (hcap : capacity < 2 ^ 31)
    (hr : Reach (ClaimSys.step b) (fun s a => (s.Owned a ∧ s.Clean b a) ∧
      OneCall thread gone s a ∧ Asks R s a) (init raw capacity) s) :
    LedgerOk s ∧ CallsOk thread R s ∧ s.list.capacity = capacity := by
  have h0 : CallsOk thread R (init raw capacity) :=
    ⟨List.Pairwise.nil, fun w hw => absurd hw List.not_mem_nil⟩
  refine hr.invariant (I := fun s => LedgerOk s ∧ CallsOk thread R s ∧ s.list.capacity = capacity)
    ⟨ledgerOk_init hcap, h0, rfl⟩ fun s a s' h hg hs => ?_
  obtain ⟨hl, hcalls, hsize⟩ := h
  refine ⟨(hl.step hg.1.1 hg.1.2 hs).1, hcalls.step hR hl hg.1.2 hg.2.1 hg.2.2 hs, ?_⟩
  rw [capacity_step hl.le_capacity hl.capacity_lt hs, hsize]

end Rule

/-- Asking while one has nothing. -/
theorem frugal_iff_asks :
    Frugal thread s a ↔ Asks (fun w c => thread c.procId ≠ thread w.procId) s a := by
  cases a <;> rfl

/-- **One claim at a time is never a deadlock.** When threads ask for a region only while they have
none, no set of threads that are still there is ever stuck. -/
theorem not_stuck_of_frugal {raw : ClaimList} {capacity : Nat} (hcap : capacity < 2 ^ 31)
    (hpos : 0 < capacity)
    (hr : Reach (ClaimSys.step b) (fun s a => (s.Owned a ∧ s.Clean b a) ∧
      OneCall thread gone s a ∧ Frugal thread s a) (init raw capacity) s)
    (hT : ∃ t, T t = true) (hthere : ∀ t, T t = true → ¬ gone t) : ¬ Stuck thread gone T s := by
  obtain ⟨-, hcalls, hsize⟩ := callsOk_of_clean (R := fun w c => thread c.procId ≠ thread w.procId)
    (fun _ _ h => h) hcap (hr.mono fun _ _ h => ⟨h.1, h.2.1, frugal_iff_asks.mp h.2.2⟩)
  intro h
  -- whoever has a claim is not asleep
  have hnone : ofThreads thread T s.granted = [] := by
    refine List.eq_nil_iff_forall_not_mem.mpr fun c hc => ?_
    obtain ⟨hc, hTc⟩ := mem_ofThreads.mp hc
    rcases h.waits _ hTc with hgone | ⟨w, hw, hthread⟩
    · exact hthere _ hTc hgone
    · exact hcalls.held w hw c hc hthread.symm
  obtain ⟨t, ht⟩ := hT
  rcases h.waits t ht with hgone | ⟨w, hw, rfl⟩
  · exact hthere t ht hgone
  · rcases h.blocked w (mem_ofThreads.mpr ⟨hw, ht⟩) with ⟨c, hc, -⟩ | hfull
    · rw [hnone] at hc
      cases hc
    · rw [hnone, hsize, List.length_nil] at hfull
      omega

/-- A writer that waits for another, which has nothing to wait for. -/
theorem not_stuck_of_frugal_two_writers :
    ∃ s : ClaimSys, s.waiting.length = 1 ∧ ¬ Stuck id (fun _ => False) (fun t => t = 1 ∨ t = 2) s := by
  let G : ClaimSys → ClaimEvent → Prop := fun s a =>
    (s.Owned a ∧ s.Clean ⟨false⟩ a) ∧ OneCall id (fun _ => False) s a ∧ Frugal id s a
  -- a call while nobody waits
  have hcall : ∀ (s : ClaimSys) h access offset count, s.pending = [] →
      OneCall id (fun _ => False) s (.claim h .success access offset count) := by
    intro s h access offset count hnone
    constructor <;> simp [hnone]
  have h1 : Reach (ClaimSys.step ⟨false⟩) G (init zeroList pageCapacity) _ :=
    .next (a := .claim ⟨1, 4096, .readWrite⟩ .success .readWrite 0 32) .init
      ⟨⟨trivial, fun _ _ _ => by decide⟩, hcall _ _ _ _ _ rfl,
        fun c hc => absurd hc List.not_mem_nil⟩ rfl
  have h2 : Reach (ClaimSys.step ⟨false⟩) G (init zeroList pageCapacity) _ :=
    .next (a := .claim ⟨2, 4096, .readWrite⟩ .success .readWrite 0 32) h1
      ⟨⟨trivial, fun _ _ _ => by decide⟩, hcall _ _ _ _ _ rfl,
        List.forall_mem_singleton.mpr (by decide)⟩ rfl
  exact ⟨_, by decide, not_stuck_of_frugal (by decide) (by decide) h2 ⟨1, by decide⟩ fun _ _ h => h⟩

end ClaimSys

end Ipm
