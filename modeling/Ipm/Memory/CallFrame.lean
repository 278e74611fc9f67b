import Ipm.Memory.Lifetime

/-!
# What a call leaves of the rest

`ipm_memory_create`, `ipm_memory_open` and `ipm_memory_close` do a few things to the kernel, in one order
when they succeed and in others when they fail and roll back. A relation between the kernels before and
after that holds of each of these things, and composes, holds of the calls: that is `CallFrame`, and the
three theorems after it go through the orders once for all such relations.
-/

set_option autoImplicit false

namespace Ipm

open Lib

/-- `R` holds of everything a call for `m` does to the kernel. `Room` is what the environment grants
`ipm_memory_open`. -/
structure CallFrame (R : Kernel → Kernel → Prop) (Room : Kernel → Prop) (m : BlockName) : Prop where
  trans : ∀ {k k₁ k₂}, R k k₁ → R k₁ k₂ → R k k₂
  same : ∀ {k k₁ H}, Counted k H → k.Same k₁ → R k k₁
  /-- A claims object is made and its list set up. -/
  claims : ∀ {k k₁ H size access block}, Counted k H →
    Created k m MemoryBlock.activeClaims.id size access block k₁ →
      R k (k₁.modifyObj block.obj ShmObject.listed)
  real : ∀ {k k₁ H size access block}, Counted k H →
    Created k m MemoryBlock.realMemory.id size access block k₁ → R k k₁
  opened : ∀ {k k₁ H access block} (kind : MemoryBlock), Counted k H →
    (kind = .realMemory → Room k) → Opened k m kind.id access block k₁ → R k k₁
  closed : ∀ {k H obj} {kind : MemoryBlock} (cell : Cell → Cell), Counted k H →
    k.names (objectPath m kind) = some obj → R k (k.closed (objectPath m kind) obj cell)

variable {k k₁ k₂ : Kernel} {H : RefCounts} {m n : BlockName} {kind : MemoryBlock} {obj : Nat}
variable {size : UInt64} {access : AccessMode} {block : SharedMemoryBlock}

theorem Kernel.objs_closed_ne (k : Kernel) (path : CString) (cell : Cell → Cell) {i : Nat}
    (h : i ≠ obj) : (k.closed path obj cell).objs i = k.objs i := by
  unfold Kernel.closed
  split
  · exact Kernel.objs_modifyObj_ne _ _ h
  · exact Kernel.objs_modifyObj_ne _ _ h

theorem Kernel.fresh_closed (k : Kernel) (path : CString) (cell : Cell → Cell) :
    (k.closed path obj cell).fresh = k.fresh := by
  unfold Kernel.closed
  split <;> rfl

/-- A new object that is closed again is as if it had not been made, whatever has been done to it. -/
theorem Counted.same_of_undo (hC : Counted k H) (h : Created k n kind.id size access block k₁)
    (hs : k₁.Steady k₂) (hobjs : ∀ i < k.fresh, k₂.objs i = k₁.objs i) :
    k.Same (k₂.closed (objectPath n kind) block.obj id) := by
  obtain ⟨hC', hkeep⟩ := hC.undo_create h hs
  have hfresh : k.fresh ≤ k₁.fresh := by
    rw [h.kernel]
    exact Nat.le_succ _
  refine ⟨funext fun p => ?_, fun i hi => ?_, ?_⟩
  · cases hp : k.names p with
    | some i => exact hkeep p i hp
    | none =>
      -- what is linked is referred to, so it was linked before
      refine Option.eq_none_iff_forall_ne_some.mpr fun i hi => ?_
      obtain ⟨l, j, rfl⟩ := hC'.known p i hi
      have hsome := (hC.linked_iff l j).mpr (hC'.pos hi)
      rw [hp] at hsome
      cases hsome
  · rw [Kernel.objs_closed_ne _ _ _ (h.obj ▸ hi.ne), hobjs i hi, h.kernel,
      Kernel.objs_build_ne _ _ _ hi.ne]
  · rw [Kernel.fresh_closed]
    exact hfresh.trans hs.fresh

namespace CallFrame

variable {R : Kernel → Kernel → Prop} {Room : Kernel → Prop}
variable {b : Build} {ctx : Context} {w : World}

/-- `ipm_memory_create`: a claims object, its list, and the real memory, with their rollbacks. -/
theorem create (hR : CallFrame R Room m) (b : Build) (ctx : Context) {os : CreateOs} (size : UInt64)
    (access : AccessMode) (hC : Counted w.kernel H) (hos : os.Sound) :
    Prog.Post (ipmMemoryCreate b ctx os size m access) w
      (fun memory w' => R w.kernel w'.kernel ∧ memory.blockName = m ∧
        w.kernel.names (objectPath m .realMemory) = none ∧ memory.realMemory.accessId = 1 ∧
          (w'.kernel.header memory.realMemory.obj).idCounter = 2)
      (fun _ w' => R w.kernel w'.kernel) fun _ w' => R w.kernel w'.kernel := by
  refine ((createClaims_post hos.claims).mono (fun _ _ h => h)
    (fun e w' h => hR.same hC h.same) fun why w' h => ?_).bind fun claims w1 h1 => ?_
  · rw [h.2.1]
    exact hR.same hC (.refl _)
  obtain ⟨hsize, h1⟩ := h1
  have hC1 : Counted w1.kernel (H.bump m .activeClaims) := hC.create h1 (H.bumped_bump _ _)
  have hl1 := Counted.names_created_self h1
  -- a rollback closes the claims object
  have hundo : ∀ w2 : World, w1.kernel.Steady w2.kernel →
      (∀ i < w.kernel.fresh, w2.kernel.objs i = w1.kernel.objs i) →
      Prog.Post (closeAndFree b ctx os.rollback claims) w2 (fun _ w' => R w.kernel w'.kernel)
        (fun _ w' => R w.kernel w'.kernel) fun _ w' => R w.kernel w'.kernel := by
    intro w2 h2 hobjs
    have hl2 : w2.kernel.names (objectPath m .activeClaims) = some claims.obj := by
      rw [h2.names]
      exact hl1
    refine (closeAndFree_post (hC1.steady h2) hos.rollback h1.hasOwnership hl2).mapRet
      fun _ w3 h3 => ?_
    rw [h3]
    exact hR.same hC (hC.same_of_undo h1 h2 hobjs)
  refine (initClaims_post.onError fun e w2 h2 => ?_).bind fun _ w2 h2 => ?_
  · rw [← h2.1] at hundo
    exact hundo w2 (.refl _) fun _ _ => rfl
  have hs2 : w1.kernel.Steady w2.kernel := by
    rw [h2]
    exact Kernel.steady_modifyObj _ _ (fun _ => rfl) fun _ => rfl
  have hR2 : R w.kernel w2.kernel := by
    rw [h2]
    exact hR.claims hC h1
  refine (((createReal_post hos.real).mapStop ?_).onError
    fun e w3 h3 => ?_).bind fun real w3 h3 => ?_
  · rintro why w3 ⟨-, hk, -⟩
    rw [hk]
    exact hR2
  · refine claimListUninit_post.bind fun _ w4 h4 => hundo w4 ?_ fun i hi => ?_
    · rw [h4]
      exact (hs2.trans h3.same.calm.toSteady).trans
        (Kernel.steady_modifyObj _ _ (fun _ => rfl) fun _ => rfl)
    · have hne : i ≠ claims.obj := by
        rw [h1.obj]
        exact hi.ne
      have hlt : i < w2.kernel.fresh := by
        rw [h2, h1.kernel]
        exact Nat.lt_succ_of_lt hi
      rw [h4, Kernel.objs_modifyObj_ne _ _ hne, h3.same.objs i hlt, h2,
        Kernel.objs_modifyObj_ne _ _ hne]
  · refine Prog.Post.pure ⟨hR.trans hR2 (hR.real (hC1.steady hs2) h3), rfl, ?_, h3.accessId, ?_⟩
    · refine Option.eq_none_iff_forall_ne_some.mpr fun i hi => ?_
      have hfree : w2.kernel.names (objectPath m .realMemory) = none := h3.free
      rw [hs2.names, Counted.keeps_created h1 _ _ hi] at hfree
      cases hfree
    · rw [h3.kernel, h3.obj, Kernel.header, Kernel.objs_build_fresh]
      rfl

/-- `ipm_memory_open`: the real memory, then the claims object. -/
theorem «open» (hR : CallFrame R Room m) (b : Build) (ctx : Context) {os : OpenOs} (access : AccessMode)
    (hC : Counted w.kernel H) (hos : os.Sound) (hcounts : ∀ kind, H m kind + 1 < 2 ^ 32)
    (hroom : Room w.kernel) :
    Prog.Post (ipmMemoryOpen b ctx os m access) w
      (fun memory w' => R w.kernel w'.kernel ∧ memory.blockName = m ∧
        w.kernel.names (objectPath m .realMemory) = some memory.realMemory.obj ∧
          memory.realMemory.accessId = (w.kernel.header memory.realMemory.obj).idCounter ∧
          (w'.kernel.header memory.realMemory.obj).idCounter =
            (w.kernel.header memory.realMemory.obj).idCounter + 1)
      (fun _ w' => R w.kernel w'.kernel) fun _ w' => R w.kernel w'.kernel := by
  refine ((openReal_post hC hos.real).mono (fun _ _ h => h) (fun e w' h => ?_)
    fun _ _ h => h).bind fun real w1 h1 => ?_
  · rw [h.1]
    exact hR.same hC (.refl _)
  have hC1 : Counted w1.kernel (H.bump m .realMemory) :=
    hC.opened h1 (H.bumped_bump _ _) (hcounts _)
  have hR1 : R w.kernel w1.kernel := hR.opened .realMemory hC (fun _ => hroom) h1
  have hl1 : w1.kernel.names (objectPath m .realMemory) = some real.obj := by
    rw [h1.kernel]
    exact h1.linked
  refine ((openClaims_post hC1 hos.claims).onError fun e w2 h2 => ?_).bind fun claims w2 h2 => ?_
  · rw [← h2.1] at hC1 hl1 hR1
    refine (closeAndFree_post hC1 hos.rollback h1.hasOwnership hl1).mapRet fun _ w3 h3 => ?_
    rw [h3]
    exact hR.trans hR1 (hR.closed _ hC1 hl1)
  · refine Prog.Post.pure ⟨hR.trans hR1 (hR.opened .activeClaims hC1 nofun h2), rfl, h1.linked,
      h1.accessId, ?_⟩
    have hne : real.obj ≠ claims.obj := by
      intro he
      have hl2 : w1.kernel.names (objectPath m .activeClaims) = some claims.obj := h2.linked
      cases (hC1.unique hl1 (he ▸ hl2)).2
    rw [Kernel.header, h2.kernel, Kernel.objs_modifyObj_ne _ _ hne, h1.kernel,
      Kernel.objs_modifyObj_self]
    rfl

/-- `ipm_memory_close`: the claims object, then the real memory. -/
theorem close (hR : CallFrame R Room m) (b : Build) (ctx : Context) (lock : IpmResult)
    {osClaims osReal : Os} {memory : Memory} (hC : Counted w.kernel (H.handle m))
    (hl : memory.LinkedAt m w.kernel) (hclaims : osClaims.Sound) (hreal : osReal.Sound)
    (hnone : memory.HoldsNone w.kernel) :
    Prog.Post (ipmMemoryClose b ctx lock osClaims osReal memory) w
      (fun _ w' => R w.kernel w'.kernel) (fun _ w' => R w.kernel w'.kernel)
      fun _ w' => R w.kernel w'.kernel := by
  have hcount : (w.kernel.objs memory.activeClaims.obj).list.count < 2 ^ 31 :=
    hnone.count.trans_lt (by decide)
  refine (releaseAllAt_none_post hcount hnone.none).bind fun _ w1 h1 => ?_
  rw [← h1] at hC hl ⊢
  have hbump' : (H.bump m .realMemory).Bumped (H.handle m) m .activeClaims :=
    H.bumped_handle m nofun
  refine (closeClaims_post hC hclaims (hl.hasOwnership .activeClaims)
    (hl.names .activeClaims)).bind fun _ w2 h2 => ?_
  have hC2 : Counted w2.kernel (H.bump m .realMemory) := by
    rw [h2]
    exact hC.closed (hl.names .activeClaims) hbump'
  have hR2 : R w1.kernel w2.kernel := by
    rw [h2]
    exact hR.closed _ hC (hl.names .activeClaims)
  have hl2 : w2.kernel.names (objectPath m .realMemory) = some memory.realMemory.obj := by
    rw [h2]
    refine hC.names_closed_of_pos (hl.names .activeClaims) hbump' (hl.names .realMemory) ?_
    rw [(H.bumped_bump m .realMemory).here]
    exact Nat.succ_pos _
  refine (closeAndFree_post hC2 hreal (hl.hasOwnership .realMemory) hl2).mapRet fun _ w3 h3 => ?_
  rw [h3]
  exact hR.trans hR2 (hR.closed _ hC2 hl2)

end CallFrame

end Ipm
