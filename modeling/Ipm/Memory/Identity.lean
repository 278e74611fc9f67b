import Ipm.Block.Identity
import Ipm.Claim.Identity

/-!
# Nobody is taken for somebody else

`claims_conflict` lets two claims with one `proc_id` overlap, and a removal looks for a `claim_id` and
nothing else. Both rest on ids: the first on the access ids of the handles of a block, the second on
the claim ids of its list. Here a block is created and opened while those who have a handle already
work on the claim list, in any order of steps, and the two counters are followed together.
-/

set_option autoImplicit false

namespace Ipm

open Lib

structure IdSys where
  block : BlockSys
  region : RegionSys
  -- for each call on the list, the thread whose handle it was made with
  owners : List Nat

inductive IdEvent where
  | block (a : BlockEvent)
  /-- A call on the list with the handle of thread `i`. -/
  | call (i : Nat) (call : RegionCall)
  | region (a : RegionEvent)

namespace IdSys

/-- A call is made with a handle that is there. Its size and mode may have changed since it was
opened, its access id has not. -/
def step (b : Build) (n : BlockName) (id : UInt64) (s : IdSys) : IdEvent → Option IdSys
  | .block a => (BlockSys.step b n id s.block a).map fun block => { s with block := block }
  | .call i call =>
    match s.block.threads[i]? with
    | some (.held block) =>
      if call.handle.accessId = block.accessId then
        (RegionSys.step b s.region (.call call)).map fun region =>
          { s with region := region, owners := s.owners ++ [i] }
      else none
    | _ => none
  | .region (.call _) => none
  | .region a => (RegionSys.step b s.region a).map fun region => { s with region := region }

/-- A block is about to be created, and its claim list has been initialised. -/
def init (k₀ : Kernel) (size : UInt64) (access : AccessMode) (raw : ClaimList) (capacity : Nat) :
    IdSys :=
  { block := ⟨k₀, [.create size access]⟩, region := .init raw capacity, owners := [] }

/-- No handle is closed, and nobody is killed. -/
def Lasting (s : IdSys) : IdEvent → Prop
  | .block a => s.block.Keeping a
  | .call _ _ => True
  | .region a => RegionSys.Peaceful a

instance (s : IdSys) : (a : IdEvent) → Decidable (s.Lasting a)
  | .block a => inferInstanceAs (Decidable (s.block.Keeping a))
  | .call _ _ => inferInstanceAs (Decidable True)
  | .region a => inferInstanceAs (Decidable (RegionSys.Peaceful a))

/-- **Ids belong to one handle, and to one claim.** -/
structure Identified (s : IdSys) : Prop where
  creator : ∀ block, s.block.threads[0]? = some (.held block) → block.accessId = 1
  handles : ∀ (i j : Nat) (x y : SharedMemoryBlock), s.block.threads[i]? = some (.held x) →
    s.block.threads[j]? = some (.held y) → x.accessId = y.accessId → i = j
  /-- What goes to `claim_add_to_list` ... -/
  passed : ∀ t ∈ s.region.threads, t.passed = true → ∃ c, t.claim = some c
  /-- ... has an id of its own ... -/
  claims : ∀ (i j : Nat) (t u : RegionThread) (c d : MemoryClaim),
    s.region.threads[i]? = some t → s.region.threads[j]? = some u → t.claim = some c →
    u.claim = some d → c.claimId = d.claimId → i = j
  /-- ... and is exempt from conflicts with the claims of its own handle only. -/
  exempt : ∀ (i j : Nat) (t u : RegionThread) (c d : MemoryClaim),
    s.region.threads[i]? = some t → s.region.threads[j]? = some u → t.claim = some c →
    u.claim = some d → c.procId = d.procId → ∃ o, s.owners[i]? = some o ∧ s.owners[j]? = some o

variable {b : Build} {n : BlockName} {id : UInt64} {path : CString} {obj : Nat}
variable {s s' : IdSys} {a : IdEvent}

/-! ## The invariant -/

/-- The two counters, and the handle behind every call. -/
structure Ok (path : CString) (obj : Nat) (s : IdSys) : Prop where
  block : s.block.IdOk path obj
  region : s.region.ClaimIdOk
  count : s.owners.length = s.region.threads.length
  owner : ∀ (j i : Nat) (t : RegionThread), s.owners[j]? = some i → s.region.threads[j]? = some t →
    ∃ block, s.block.threads[i]? = some (.held block) ∧ t.call.handle.accessId = block.accessId

theorem ok_init {k₀ : Kernel} {size : UInt64} {access : AccessMode} {raw : ClaimList}
    {capacity : Nat} (hfree : k₀.names path = none) :
    Ok path k₀.fresh (init k₀ size access raw capacity) := by
  refine ⟨BlockSys.idOk_start hfree, RegionSys.claimIdOk_init raw capacity, rfl, ?_⟩
  intro j i t hi
  cases hi

/-- A handle stays where it is while nothing is closed. -/
theorem held_stays {s s' : BlockSys} {a : BlockEvent} {i : Nat} {block : SharedMemoryBlock}
    (ha : s.Keeping a) (hs : BlockSys.step b n id s a = some s')
    (h : s.threads[i]? = some (.held block)) : s'.threads[i]? = some (.held block) := by
  cases a with
  | «open» access =>
    cases hs
    obtain ⟨hlt, -⟩ := List.getElem?_eq_some_iff.mp h
    show (s.threads ++ [.lookup access])[i]? = _
    rw [List.getElem?_append_left hlt]
    exact h
  | step j e =>
    obtain ⟨p, hget, hout⟩ := BlockSys.step_thread hs
    have hne : j ≠ i := by
      rintro rfl
      obtain rfl := Option.some.inj (hget.symm.trans h)
      cases ha _ hget
    have hset : ∀ p', (s.threads.set j p')[i]? = some (.held block) := by
      intro p'
      rw [List.getElem?_set_ne hne]
      exact h
    rcases hout with ⟨p', w, -, rfl⟩ | ⟨why, w, -, rfl⟩
    · exact hset _
    · exact hset _

/-- A step on the list keeps the calls there are. -/
theorem calls_stay {s s' : RegionSys} {a : RegionEvent} (hs : RegionSys.step b s a = some s')
    (ha : ∀ call, a ≠ .call call) :
    s'.threads.length = s.threads.length ∧
      ∀ (j : Nat) t', s'.threads[j]? = some t' → ∃ t, s.threads[j]? = some t ∧ t'.call = t.call := by
  rcases RegionSys.step_cases hs with ⟨call, rfl, -⟩ | ⟨i, t, m, l, t₁, hget, hmove, rfl⟩
  · exact absurd rfl (ha call)
  · refine ⟨List.length_set, ?_⟩
    intro j t' hj
    rcases getElem?_set_cases hj with ⟨rfl, rfl⟩ | ⟨-, hj⟩
    · exact ⟨t, hget, hmove.call⟩
    · exact ⟨t', hj, rfl⟩

theorem Ok.call (h : Ok path obj s) {i : Nat} {call : RegionCall}
    (hs : IdSys.step b n id s (.call i call) = some s') : Ok path obj s' := by
  simp only [IdSys.step] at hs
  split at hs
  · rename_i block hget
    split at hs
    · rename_i haccess
      cases hs
      refine ⟨h.block, h.region.step (a := .call call) trivial rfl, ?_, ?_⟩
      · show (s.owners ++ [i]).length = (s.region.threads ++ [RegionThread.start b call]).length
        rw [List.length_append, List.length_append, h.count]
        rfl
      · intro j o t ho ht
        rcases getElem?_concat_cases ht with ht | ⟨rfl, rfl⟩
        · obtain ⟨hlt, -⟩ := List.getElem?_eq_some_iff.mp ht
          rw [List.getElem?_append_left (h.count ▸ hlt)] at ho
          exact h.owner j o t ho ht
        · rw [← h.count, List.getElem?_concat_length] at ho
          obtain rfl := Option.some.inj ho
          exact ⟨block, hget, haccess⟩
    · cases hs
  · cases hs

theorem Ok.move {a : RegionEvent} (h : Ok path obj s) (hg : RegionSys.Peaceful a)
    (hs : IdSys.step b n id s (.region a) = some s') : Ok path obj s' := by
  have hcall : ∀ call, a ≠ .call call := by
    rintro call rfl
    cases hs
  obtain ⟨region, hstep, rfl⟩ : ∃ region, RegionSys.step b s.region a = some region ∧
      s' = { s with region := region } := by
    cases a with
    | call call => exact absurd rfl (hcall call)
    | _ =>
      obtain ⟨region, hstep, heq⟩ := Option.map_eq_some_iff.mp hs
      exact ⟨region, hstep, heq.symm⟩
  obtain ⟨hlen, hstay⟩ := calls_stay hstep hcall
  refine ⟨h.block, h.region.step hg hstep, h.count.trans hlen.symm, ?_⟩
  intro j i t' hi ht'
  obtain ⟨t, ht, hsame⟩ := hstay j t' ht'
  rw [hsame]
  exact h.owner j i t hi ht

theorem Ok.step (h : Ok (makeBlockNameBasedOnId n.chars id) obj s) (hg : s.Lasting a)
    (hs : IdSys.step b n id s a = some s') : Ok (makeBlockNameBasedOnId n.chars id) obj s' := by
  cases a with
  | block a =>
    obtain ⟨block, hstep, rfl⟩ := Option.map_eq_some_iff.mp hs
    refine ⟨h.block.step hg hstep, h.region, h.count, ?_⟩
    intro j i t hi ht
    obtain ⟨held, hheld, haccess⟩ := h.owner j i t hi ht
    exact ⟨held, held_stays hg hstep hheld, haccess⟩
  | call i call => exact h.call hs
  | region a => exact h.move hg hs

/-! ## Runs -/

theorem Ok.handles (h : Ok path obj s) (hopens : s.block.threads.length ≤ 2 ^ 64) {i j : Nat}
    {x y : SharedMemoryBlock} (hx : s.block.threads[i]? = some (.held x))
    (hy : s.block.threads[j]? = some (.held y)) (heq : x.accessId = y.accessId) : i = j :=
  eq_of_nodup_filterMap (h.block.nodup hopens) hx hy rfl (congrArg some heq.symm)

/-- **Identities are never reused.** -/
theorem identified_of_lasting {k₀ : Kernel} {size : UInt64} {access : AccessMode} {raw : ClaimList}
    {capacity : Nat} (hfree : k₀.names (makeBlockNameBasedOnId n.chars id) = none)
    (hr : Reach (IdSys.step b n id) Lasting (init k₀ size access raw capacity) s)
    (hopens : s.block.threads.length ≤ 2 ^ 64)
    (hclaims : s.region.threads.countP (fun t => t.call.claims) ≤ 2 ^ 64) : s.Identified := by
  have hok : Ok (makeBlockNameBasedOnId n.chars id) k₀.fresh s :=
    hr.invariant (ok_init hfree) fun _ _ _ h hg hs => h.step hg hs
  have hbuilds : ∀ {i : Nat} {t : RegionThread}, s.region.threads[i]? = some t →
      RegionSys.Builds t := fun ht => hok.region.builds _ (List.mem_of_getElem? ht)
  refine ⟨fun block hget => (hok.block.creator hget).2, fun i j x y => hok.handles hopens, ?_, ?_, ?_⟩
  · intro t ht hpassed
    exact Option.isSome_iff_exists.mp ((hok.region.builds t ht).passed hpassed)
  · intro i j t u c d ht hu hc hd heq
    refine eq_of_nodup_filterMap (c := c.claimId) (hok.region.nodup hclaims) ht hu ?_ ?_
    · rw [RegionThread.claimId, hc]
      rfl
    · rw [RegionThread.claimId, hd, heq]
      rfl
  · intro i j t u c d ht hu hc hd heq
    have hown : ∀ {i : Nat} {t : RegionThread}, s.region.threads[i]? = some t →
        ∃ o, s.owners[i]? = some o := by
      intro i t ht
      obtain ⟨hlt, -⟩ := List.getElem?_eq_some_iff.mp ht
      exact ⟨_, List.getElem?_eq_getElem (hok.count ▸ hlt)⟩
    obtain ⟨o, ho⟩ := hown ht
    obtain ⟨o', ho'⟩ := hown hu
    obtain ⟨x, hx, hxid⟩ := hok.owner i o t ho ht
    obtain ⟨y, hy, hyid⟩ := hok.owner j o' u ho' hu
    have hsame : x.accessId = y.accessId := by
      rw [← hxid, ← hyid, ← ((hbuilds ht).made c hc).2, ← ((hbuilds hu).made d hd).2]
      exact heq
    obtain rfl := hok.handles hopens hx hy hsame
    exact ⟨o, ho, ho'⟩

/-- A block `("a", 1)` about to be created, with a page of claims. -/
def first : IdSys := init .empty 4096 .readWrite zeroList pageCapacity

/-- The block is created and opened, and each of the two handles claims a region to read. -/
def twoHandles : List IdEvent :=
  List.replicate 11 (.block (.step 0 .willing)) ++ [.block (.open .readWrite)] ++
    List.replicate 9 (.block (.step 1 .willing)) ++
    [.call 0 (.claimRegion ⟨1, 4096, .readWrite⟩ .readOnly 0 32), .region (.lock 0 none),
      .region (.step 0), .region (.step 0), .region (.step 0), .region (.step 0),
      .call 1 (.claimRegion ⟨2, 4096, .readWrite⟩ .readOnly 64 32), .region (.lock 1 none),
      .region (.step 1), .region (.step 1), .region (.step 1), .region (.step 1)]

/-- The ids given out: two of each kind. -/
def hasTwo (s : IdSys) : Bool :=
  decide (s.block.threads.filterMap Point.handleId = [1, 2] ∧
    s.region.threads.filterMap RegionThread.claimId = [0, 1] ∧
    s.block.threads.length = 2 ∧ s.region.threads.length = 2)

theorem identified_twoHandles :
    Kernel.empty.names (makeBlockNameBasedOnId BlockName.a.chars 1) = none ∧
    ∃ s, Reach (IdSys.step ⟨false⟩ .a 1) Lasting first s ∧ s.hasTwo = true ∧ s.Identified := by
  have htrace : ∃ s, Reach (IdSys.step ⟨false⟩ .a 1) Lasting first s ∧ s.hasTwo = true :=
    exists_reach_of_trace (g := fun s a => decide (s.Lasting a)) (t := hasTwo) twoHandles
      (fun _ _ h => of_decide_eq_true h) (fun _ h => h) (by decide +kernel)
  obtain ⟨s, hr, htwo⟩ := htrace
  refine ⟨rfl, s, hr, htwo, identified_of_lasting rfl hr ?_ ?_⟩
  · rw [(of_decide_eq_true htwo).2.2.1]
    decide
  · refine List.countP_le_length.trans ?_
    rw [(of_decide_eq_true htwo).2.2.2]
    decide

end IdSys

end Ipm
