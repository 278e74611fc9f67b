import Ipm.Lib.Builds
import Ipm.Memory.Ending

/-!
# Assertions are only checks

With `NDEBUG` the library does what it does without, as long as no assertion fails: none of them has an
effect of its own. Function by function that is `Released`. And since on the machine no assertion fails but
those about the request (`Memory/Ending.lean`), the two builds have the same runs there
(`reach_iff_release`).
-/

set_option autoImplicit false

namespace Ipm

open Lib

/-! ## The claim list -/

theorem claimAddToList_released (claim : MemoryClaim) (list : ClaimList) :
    (claimAddToList ⟨false⟩ claim list).Released (claimAddToList ⟨true⟩ claim list) := by
  unfold claimAddToList
  refine .check _ _ (.ite (.refl _) ?_)
  exact .check _ _ (.refl _)

theorem claimRemoveFromList_released (id : UInt64) (list : ClaimList) :
    (claimRemoveFromList ⟨false⟩ id list).Released (claimRemoveFromList ⟨true⟩ id list) := by
  unfold claimRemoveFromList
  exact .check _ _ (.refl _)

theorem claimRegionTurn_released (claim : MemoryClaim) (list : ClaimList) :
    (claimRegionTurn ⟨false⟩ claim list).Released (claimRegionTurn ⟨true⟩ claim list) := by
  unfold claimRegionTurn
  exact .ite ((claimAddToList_released claim list).andThen fun _ _ => .refl _) (.refl _)

theorem ipmMemoryReleaseRegion_released (lock : IpmResult) (id : UInt64) (list : ClaimList) :
    (ipmMemoryReleaseRegion ⟨false⟩ lock id list).Released (ipmMemoryReleaseRegion ⟨true⟩ lock id list) := by
  unfold ipmMemoryReleaseRegion
  exact .ite (.refl _) (claimRemoveFromList_released id list)

theorem releaseAllLoop_released (id : UInt64) (fuel : Nat) : ∀ (i : Nat) (list : ClaimList),
    (releaseAllLoop ⟨false⟩ id fuel i list).Released (releaseAllLoop ⟨true⟩ id fuel i list) := by
  induction fuel with
  | zero => exact fun _ _ => .refl _
  | succ fuel ih =>
    intro i list
    rw [releaseAllLoop, releaseAllLoop]
    refine .ite (.ite ?_ (ih (i + 1) list)) (.refl _)
    exact (claimRemoveFromList_released _ list).andThen fun _ list => ih i list

theorem ipmMemoryReleaseAll_released (lock : IpmResult) (id : UInt64) (list : ClaimList) :
    (ipmMemoryReleaseAll ⟨false⟩ lock id list).Released (ipmMemoryReleaseAll ⟨true⟩ lock id list) := by
  unfold ipmMemoryReleaseAll
  exact .ite (.refl _) ((releaseAllLoop_released id _ 0 list).andThen fun _ _ => .refl _)

theorem removeAllLoop_released (fuel : Nat) : ∀ list : ClaimList,
    (removeAllLoop ⟨false⟩ fuel list).Released (removeAllLoop ⟨true⟩ fuel list) := by
  induction fuel with
  | zero => exact fun _ => .refl _
  | succ fuel ih =>
    intro list
    rw [removeAllLoop, removeAllLoop]
    exact .ite ((claimRemoveFromList_released _ list).andThen fun _ list => ih list) (.refl _)

theorem ipmMemoryRemoveAllActiveClaims_released (lock : IpmResult) (list : ClaimList) :
    (ipmMemoryRemoveAllActiveClaims ⟨false⟩ lock list).Released
      (ipmMemoryRemoveAllActiveClaims ⟨true⟩ lock list) := by
  unfold ipmMemoryRemoveAllActiveClaims
  exact .ite (.refl _) ((removeAllLoop_released _ list).andThen fun _ _ => .refl _)

theorem ClaimSys.turn_release {s : ClaimSys} {claim : MemoryClaim}
    (hquiet : (claimRegionTurn ⟨false⟩ claim s.list).stopped? ≠ some .assertion) :
    turn ⟨true⟩ claim s = turn ⟨false⟩ claim s := by
  rw [turn, turn, (claimRegionTurn_released claim s.list).eq hquiet]

theorem ClaimSys.purge_release {s : ClaimSys} {lock : IpmResult} {id : UInt64}
    (hquiet : (ipmMemoryReleaseAll ⟨false⟩ lock id s.list).stopped? ≠ some .assertion) :
    purge ⟨true⟩ lock id s = purge ⟨false⟩ lock id s := by
  rw [purge, purge, (ipmMemoryReleaseAll_released lock id s.list).eq hquiet]

/-- A critical section that no assertion stops. -/
theorem ClaimSys.step_release {s : ClaimSys} {a : ClaimEvent}
    (hquiet : s.ending ⟨false⟩ a ≠ some .assertion) :
    ClaimSys.step ⟨true⟩ s a = ClaimSys.step ⟨false⟩ s a := by
  cases a with
  | claim h lock access offset count =>
    rw [ending] at hquiet
    by_cases hzero : count = 0
    · rw [if_pos ⟨rfl, hzero⟩] at hquiet
      exact absurd rfl hquiet
    · have hassert : ∀ b : Build, ¬ (b.ndebug = false ∧ count = 0) := fun b h => hzero h.2
      rw [if_neg (hassert _)] at hquiet
      rw [ClaimSys.step, ClaimSys.step, if_neg (hassert ⟨true⟩), if_neg (hassert ⟨false⟩)]
      split
      · rfl
      · rename_i hcheck
        rw [if_neg hcheck] at hquiet
        split
        · rfl
        · rename_i hlock
          rw [if_neg hlock] at hquiet
          exact turn_release hquiet
  | recheck i =>
    refine Option.bind_congr fun claim hclaim => ?_
    have hturn : (claimRegionTurn ⟨false⟩ claim s.list).stopped? ≠ some .assertion := by
      rw [ending, hclaim] at hquiet
      exact hquiet
    exact turn_release hturn
  | waitFails i => rfl
  | spurious i => rfl
  | signal i => rfl
  | releaseRegion h lock id =>
    show giveBack _ _ _ _ _ = giveBack _ _ _ _ _
    rw [giveBack, giveBack, (ipmMemoryReleaseRegion_released lock id s.list).eq hquiet]
  | releaseAll h lock => exact purge_release hquiet
  | removeAll lock =>
    show clear _ _ _ = clear _ _ _
    rw [clear, clear, (ipmMemoryRemoveAllActiveClaims_released lock s.list).eq hquiet]
  | close h lock => exact purge_release hquiet

/-! ## Whole calls -/

section Calls

variable (ctx : Context)

theorem sharedMemoryBlockCreate_released (os : Os) (n : BlockName) (id size : UInt64)
    (access : AccessMode) :
    Prog.Released fun b => sharedMemoryBlockCreate b ctx os n id size access := by
  unfold sharedMemoryBlockCreate
  exact .bind (.assert _) fun _ => .bind (.assert _) fun _ => .const _

theorem sharedMemoryBlockClose_released (os : Os) (block : SharedMemoryBlock) (callback : Call Unit) :
    Prog.Released fun b => sharedMemoryBlockClose b ctx os block callback := by
  unfold sharedMemoryBlockClose
  exact .bind (.assert _) fun _ => .const _

theorem sharedMemoryBlockClean_released (os : Os) (block : SharedMemoryBlock) :
    Prog.Released fun b => sharedMemoryBlockClean b os block := by
  unfold sharedMemoryBlockClean
  exact .bind (.assert _) fun _ => .const _

theorem releaseAllAt_released (lock : IpmResult) (id : UInt64) (obj : Nat) :
    Prog.Released fun b => releaseAllAt b lock id obj := by
  intro w
  have heq : ∀ b : Build, releaseAllAt b lock id obj w =
      ((ipmMemoryReleaseAll b lock id (w.kernel.objs obj).list).within fun list =>
        { w with kernel := w.kernel.modifyObj obj fun o => { o with list := list } }).andThen
          fun _ w => .ret (.ok ()) w := by
    intro b
    unfold releaseAllAt
    cases ipmMemoryReleaseAll b lock id (w.kernel.objs obj).list <;> rfl
  show Outcome.Released (releaseAllAt _ lock id obj w) (releaseAllAt _ lock id obj w)
  rw [heq, heq]
  refine .andThen ?_ fun _ _ => .refl _
  exact (ipmMemoryReleaseAll_released lock id _).within _

theorem closeAndFree_released (os : Os) (block : SharedMemoryBlock) :
    Prog.Released fun b => closeAndFree b ctx os block := by
  unfold closeAndFree
  exact (sharedMemoryBlockClose_released ctx os block _).ignore.bind fun _ => .const _

theorem ipmMemoryCreate_released (os : CreateOs) (size : UInt64) (n : BlockName) (access : AccessMode) :
    Prog.Released fun b => ipmMemoryCreate b ctx os size n access := by
  have hclaims : Prog.Released fun b => createClaims b ctx os.alloc os.claims size n := by
    unfold createClaims
    refine .bind (.assert _) fun _ => .bind (.const _) fun _ => ?_
    refine .bind (.assert _) fun _ => .bind (.assert _) fun _ => ?_
    exact (sharedMemoryBlockCreate_released ctx _ _ _ _ _).onError (.const _)
  have hreal : Prog.Released fun b => createReal b ctx os.real size n access := by
    unfold createReal
    exact (sharedMemoryBlockCreate_released ctx _ _ _ _ _).onError (.const _)
  unfold ipmMemoryCreate
  refine hclaims.bind fun claims => ?_
  refine .bind (.onError (.const _) (closeAndFree_released ctx _ _)) fun _ => ?_
  refine .bind (hreal.onError ?_) fun _ => .const _
  exact .bind (.const _) fun _ => closeAndFree_released ctx _ _

theorem ipmMemoryOpen_released (os : OpenOs) (n : BlockName) (access : AccessMode) :
    Prog.Released fun b => ipmMemoryOpen b ctx os n access := by
  unfold ipmMemoryOpen
  refine .bind (.const _) fun real => ?_
  exact .bind (.onError (.const _) (closeAndFree_released ctx _ real)) fun _ => .const _

theorem ipmMemoryClose_released (lock : IpmResult) (claims real : Os) (memory : Memory) :
    Prog.Released fun b => ipmMemoryClose b ctx lock claims real memory := by
  unfold ipmMemoryClose closeClaims
  refine (releaseAllAt_released lock _ _).bind fun _ => ?_
  refine (sharedMemoryBlockClose_released ctx claims _ _).ignore.bind fun _ => ?_
  exact closeAndFree_released ctx real _

theorem ipmMemoryClean_released (claims real : Os) (memory : Memory) :
    Prog.Released fun b => ipmMemoryClean b claims real memory := by
  unfold ipmMemoryClean
  refine (sharedMemoryBlockClean_released claims _).ignore.bind fun _ => ?_
  exact (sharedMemoryBlockClean_released real _).ignore.bind fun _ => .const _

theorem remapCall_released (e : RemapEnv) (memory : Memory) (call : RemapCall) :
    Prog.Released fun b => call.run b e memory := by
  cases call with
  | sync => exact .const _
  | changeAccess access => exact .const _
  | resizeGrow newSize =>
    have hcheck : Prog.Released fun b => growCheck b e.ctx memory.realMemory newSize := by
      unfold growCheck resizeCheck
      refine .ite (.const _) (.bind ?_ fun _ => .const _)
      refine .bind (.const _) fun _ => .bind (.assert _) fun _ => ?_
      exact .bind (.assert _) fun _ => .assert _
    show Prog.Released fun b => resizeGrowNoted b e memory newSize
    unfold resizeGrowNoted
    refine hcheck.bind fun r => ?_
    cases r with
    | none => exact .const _
    | some size => exact .const _

end Calls

/-- A whole call that no assertion stops. -/
theorem LifeSys.step_release {s : LifeSys} {a : LifeEvent} (hquiet : s.ending ⟨false⟩ a ≠ some .assertion) :
    LifeSys.step ⟨true⟩ s a = LifeSys.step ⟨false⟩ s a := by
  cases a with
  | create c os size n access =>
    have heq := (ipmMemoryCreate_released c.ctx os size n access).eq hquiet
    rw [step, step, heq]
  | «open» c os n access =>
    have heq := (ipmMemoryOpen_released c.ctx os n access).eq hquiet
    rw [step, step, heq]
  | close c lock claims real i =>
    rw [step, step]
    cases hget : s.handles[i]? with
    | none => rfl
    | some memory =>
      rw [ending, hget] at hquiet
      have heq := (ipmMemoryClose_released c.ctx lock claims real memory).eq hquiet
      rw [Option.map_some, Option.map_some, heq]
  | fork i => rfl
  | clean c claims real j =>
    rw [step, step]
    cases hget : s.copies[j]? with
    | none => rfl
    | some memory =>
      rw [ending, hget] at hquiet
      have heq := (ipmMemoryClean_released claims real memory).eq hquiet
      rw [Option.map_some, Option.map_some, heq]
  | regions i list => rfl

/-! ## All calls -/

namespace Machine

variable {s : HostSys} {a : MachineEvent}

/-- A call that no assertion stops. -/
theorem step_release (hquiet : ending ⟨false⟩ s a ≠ some .assertion) :
    Machine.step ⟨true⟩ s a = Machine.step ⟨false⟩ s a := by
  cases a with
  | host a =>
    cases a with
    | life a =>
      have heq := LifeSys.step_release (s := s.life) (a := a) hquiet
      cases a with
      | regions i list => rfl
      | _ => exact congrArg (Option.map fun life => { s with life := life }) heq
    | region i a =>
      show HostSys.step ⟨true⟩ s (.region i a) = HostSys.step ⟨false⟩ s (.region i a)
      rw [HostSys.step, HostSys.step]
      refine Option.bind_congr fun memory hget => ?_
      rw [ending, hget] at hquiet
      rw [ClaimSys.step_release hquiet]
  | remap i proc call env =>
    show Option.map _ _ = Option.map _ _
    cases hget : s.life.handles[i]? with
    | none => rfl
    | some memory =>
      rw [ending, hget] at hquiet
      have heq := (remapCall_released env memory call).eq hquiet
      rw [Option.map_some, Option.map_some, heq]

/-- A run as it should be, in which nobody asks for what there is an assertion against. -/
def Proper (s : HostSys) (a : MachineEvent) : Prop := Settling ⟨false⟩ s a ∧ ¬ Misused s a

/-- **The assertions can be compiled out**: the build with them and the one without have the same runs, but
for requests that an assertion is against. -/
theorem reach_iff_release :
    Reach (Machine.step ⟨false⟩) Proper HostSys.init s ↔ Reach (Machine.step ⟨true⟩) Proper HostSys.init s := by
  refine Reach.congr (I := MachineOk ⟨false⟩) ⟨HostSys.serviceOk_init, nofun⟩
    (fun _ _ _ h ha hs => h.step ha.1 hs) fun s a h ha => step_release fun hstop => ?_
  exact ha.2 (h.ends ha.1 hstop).2.2

end Machine

end Ipm
