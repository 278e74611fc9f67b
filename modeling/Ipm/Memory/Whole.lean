import Ipm.Memory.Spec

/-!
# Whole calls of `ipm_memory.c`

`ipm_memory_create`, `ipm_memory_open`, `ipm_memory_close` and `ipm_memory_clean` run from beginning
to end, with their rollbacks. Each adds or removes one handle, that is one reference to both objects
of a name, or leaves the counts as they were.
-/

set_option autoImplicit false

namespace Ipm

open Lib

/-! ## One reference, one handle -/

/-- One reference to `(n, kind)` more. -/
def RefCounts.bump (H : RefCounts) (n : BlockName) (kind : MemoryBlock) : RefCounts := fun m j =>
  if m = n ∧ j = kind then H m j + 1 else H m j

/-- One handle of `n` more. -/
def RefCounts.handle (H : RefCounts) (n : BlockName) : RefCounts := fun m j =>
  if m = n then H m j + 1 else H m j

/-- The block of a handle behind each of its two objects. -/
def Memory.block (memory : Memory) : MemoryBlock → SharedMemoryBlock
  | .realMemory => memory.realMemory
  | .activeClaims => memory.activeClaims

/-- A handle of `n` whose objects are linked, and that does not own them whole. -/
structure Memory.LinkedAt (memory : Memory) (n : BlockName) (k : Kernel) : Prop where
  blockName : memory.blockName = n
  names : ∀ kind, k.names (objectPath n kind) = some (memory.block kind).obj
  hasOwnership : ∀ kind, (memory.block kind).hasOwnership = false

variable {k k₁ k₂ : Kernel} {H : RefCounts} {n m : BlockName} {kind j : MemoryBlock}
variable {size : UInt64} {access : AccessMode} {block : SharedMemoryBlock}

theorem RefCounts.bumped_bump (H : RefCounts) (n : BlockName) (kind : MemoryBlock) :
    H.Bumped (H.bump n kind) n kind :=
  ⟨if_pos ⟨rfl, rfl⟩, fun _ _ hne => if_neg hne⟩

/-- The second of a handle's two references. -/
theorem RefCounts.bumped_handle (H : RefCounts) (n : BlockName) (hne : j ≠ kind) :
    (H.bump n kind).Bumped (H.handle n) n j := by
  constructor
  · simp [bump, handle, hne]
  · intro m i hmi
    by_cases hm : m = n
    · have hi : i = kind := by
        have hij : i ≠ j := fun h => hmi ⟨hm, h⟩
        revert hne hij
        cases i <;> cases j <;> cases kind <;> simp
      simp [bump, handle, hm, hi]
    · simp [bump, handle, hm]

/-- Whatever was linked still is. -/
def Kernel.Keeps (k k' : Kernel) : Prop := ∀ p i, k.names p = some i → k'.names p = some i

theorem Kernel.Keeps.trans (h₁ : k.Keeps k₁) (h₂ : k₁.Keeps k₂) : k.Keeps k₂ :=
  fun p i h => h₂ p i (h₁ p i h)

theorem Kernel.Keeps.of_eq {k' : Kernel} (h : k'.names = k.names) : k.Keeps k' := by
  intro p i hp
  rw [h]
  exact hp

theorem Kernel.Steady.refl (k : Kernel) : k.Steady k := (Kernel.Same.refl k).calm.toSteady

theorem Kernel.Steady.trans (h₁ : k.Steady k₁) (h₂ : k₁.Steady k₂) : k.Steady k₂ where
  names := h₂.names.trans h₁.names
  header := fun i hi => (h₂.header i (hi.trans_le h₁.fresh)).trans (h₁.header i hi)
  length := fun i hi => (h₂.length i (hi.trans_le h₁.fresh)).trans (h₁.length i hi)
  fresh := h₁.fresh.trans h₂.fresh

theorem Memory.LinkedAt.keep {memory : Memory} (h : memory.LinkedAt n k) (hk : k.Keeps k₁) :
    memory.LinkedAt n k₁ :=
  ⟨h.blockName, fun kind => hk _ _ (h.names kind), h.hasOwnership⟩

namespace Counted

/-- A path that is free has no references. -/
theorem eq_zero_of_free (h : Counted k H) (hfree : k.names (objectPath n kind) = none) :
    H n kind = 0 := by
  by_contra hne
  have hsome := (h.linked_iff n kind).mpr (Nat.pos_of_ne_zero hne)
  rw [hfree] at hsome
  cases hsome

theorem keeps_created (hc : Created k n kind.id size access block k₁) : k.Keeps k₁ :=
  fun _ _ hp => names_created hc hp

/-- Creating an object and closing it again, whatever happens to its list in between. -/
theorem undo_create (h : Counted k H) (hc : Created k n kind.id size access block k₁)
    (hs : k₁.Steady k₂) :
    Counted (k₂.closed (objectPath n kind) block.obj id) H ∧
      k.Keeps (k₂.closed (objectPath n kind) block.obj id) := by
  have h₂ : Counted k₂ (H.bump n kind) := (h.create hc (H.bumped_bump n kind)).steady hs
  have hl : k₂.names (objectPath n kind) = some block.obj := by
    rw [hs.names]
    exact names_created_self hc
  refine ⟨h₂.closed hl (H.bumped_bump n kind), fun p i hp => ?_⟩
  obtain ⟨m, j, rfl⟩ := h.known p i hp
  have hne : ¬ (m = n ∧ j = kind) := by
    rintro ⟨rfl, rfl⟩
    rw [show k.names (objectPath m j) = none from hc.free] at hp
    cases hp
  refine h₂.names_closed hl ?_ (.inl hne)
  rw [hs.names]
  exact names_created hc hp

/-- Opening an object and closing it again. -/
theorem undo_open (h : Counted k H) (ho : Opened k n kind.id access block k₁)
    (hlt : H n kind + 1 < 2 ^ 32) :
    Counted (k₁.closed (objectPath n kind) block.obj id) H ∧
      k.Keeps (k₁.closed (objectPath n kind) block.obj id) := by
  have hbump := H.bumped_bump n kind
  have h₁ : Counted k₁ (H.bump n kind) := h.opened ho hbump hlt
  have hpos : 0 < H n kind := h.pos ho.linked
  have hnames : k₁.names = k.names := by
    rw [ho.kernel]
    rfl
  have hl : k₁.names (objectPath n kind) = some block.obj := by
    rw [hnames]
    exact ho.linked
  refine ⟨h₁.closed hl hbump, fun p i hp => ?_⟩
  obtain ⟨m, j, rfl⟩ := h.known p i hp
  refine h₁.names_closed hl (by rw [hnames]; exact hp) (.inr ?_)
  rw [hbump.here]
  exact Nat.lt_add_of_pos_left hpos

/-- A close takes nobody else's object away. -/
theorem names_closed_of_pos (h : Counted k H) {H' : RefCounts} {obj i : Nat} {cell : Cell → Cell}
    (hl : k.names (objectPath n kind) = some obj) (hH : H'.Bumped H n kind)
    (hm : k.names (objectPath m j) = some i) (hpos : 0 < H' m j) :
    (k.closed (objectPath n kind) obj cell).names (objectPath m j) = some i := by
  refine h.names_closed hl hm ?_
  by_cases hmj : m = n ∧ j = kind
  · obtain ⟨rfl, rfl⟩ := hmj
    refine .inr ?_
    rw [hH.here]
    exact Nat.lt_add_of_pos_left hpos
  · exact .inl hmj

end Counted

/-! ## The calls -/

/-- The environment's side of `ipm_memory_create`. -/
structure CreateOs.Sound (os : CreateOs) : Prop where
  claims : os.claims.Sound
  real : os.real.Sound
  rollback : os.rollback.Sound

/-- The environment's side of `ipm_memory_open`. -/
structure OpenOs.Sound (os : OpenOs) : Prop where
  real : os.real.Sound
  claims : os.claims.Sound
  rollback : os.rollback.Sound

instance (os : CreateOs) : Decidable os.Sound :=
  decidable_of_iff (os.claims.Sound ∧ os.real.Sound ∧ os.rollback.Sound)
    ⟨fun h => ⟨h.1, h.2.1, h.2.2⟩, fun h => ⟨h.claims, h.real, h.rollback⟩⟩

instance (os : OpenOs) : Decidable os.Sound :=
  decidable_of_iff (os.real.Sound ∧ os.claims.Sound ∧ os.rollback.Sound)
    ⟨fun h => ⟨h.1, h.2.1, h.2.2⟩, fun h => ⟨h.real, h.claims, h.rollback⟩⟩

/-- How a failing `ipm_memory_create` ends: counts and names are as before. Only a name in use is
reported as such, and it is once the allocator and `shm_open` have answered. -/
structure NotCreated (os : CreateOs) (H : RefCounts) (n : BlockName) (e : IpmResult)
    (k k' : Kernel) : Prop where
  counted : Counted k' H
  keeps : k.Keeps k'
  taken : e = .errExists → ∃ kind, 0 < H n kind
  exists_of_asked : os.alloc = true → (∃ fd, os.claims.shmOpen = .ok fd) →
    0 < H n .activeClaims → e = .errExists

variable {b : Build} {ctx : Context} {w : World}

/-- **`ipm_memory_create`** adds a handle, or leaves counts and names alone. -/
theorem ipmMemoryCreate_post (b : Build) (ctx : Context) {os : CreateOs} (size : UInt64)
    (n : BlockName) (access : AccessMode) (hC : Counted w.kernel H) (hos : os.Sound) :
    Prog.Post (ipmMemoryCreate b ctx os size n access) w
      (fun memory w' => H n .activeClaims = 0 ∧ Counted w'.kernel (H.handle n) ∧
        w.kernel.Keeps w'.kernel ∧ memory.LinkedAt n w'.kernel)
      (fun e w' => NotCreated os H n e w.kernel w'.kernel)
      (fun why w' => why = .assertion ∧ w'.kernel = w.kernel ∧ ¬ RequestOk b size) := by
  refine ((createClaims_post hos.claims).mono (fun _ _ h => h) (fun e w' h => ?_)
    (fun _ _ h => h)).bind fun claims w1 h1 => ?_
  · refine ⟨hC.steady h.same.calm.toSteady, .of_eq h.same.names, fun he => ?_, fun ha hfd hpos => ?_⟩
    · exact ⟨.activeClaims, (hC.linked_iff n .activeClaims).mp (h.taken he)⟩
    · exact h.exists_of_asked ⟨ha, hfd⟩ ((hC.linked_iff n .activeClaims).mpr hpos)
  obtain ⟨hsize, h1⟩ := h1
  have hzero : H n .activeClaims = 0 := hC.eq_zero_of_free h1.free
  have hC1 : Counted w1.kernel (H.bump n .activeClaims) := hC.create h1 (H.bumped_bump _ _)
  have hl1 := Counted.names_created_self h1
  -- a rollback closes the claims object, whatever has become of its list
  have hundo : ∀ (e : IpmResult) (w2 : World), w1.kernel.Steady w2.kernel →
      (e = .errExists → ∃ kind, 0 < H n kind) →
      Prog.Post (closeAndFree b ctx os.rollback claims) w2
        (fun _ w' => NotCreated os H n e w.kernel w'.kernel)
        (fun _ w' => NotCreated os H n e w.kernel w'.kernel)
        (fun why w' => why = .assertion ∧ w'.kernel = w.kernel ∧ ¬ RequestOk b size) := by
    intro e w2 h2 he
    have hl2 : w2.kernel.names (objectPath n .activeClaims) = some claims.obj := by
      rw [h2.names]
      exact hl1
    refine (closeAndFree_post (hC1.steady h2) hos.rollback h1.hasOwnership hl2).mapRet fun _ w3 h3 =>
      ?_
    obtain ⟨hcount, hkeep⟩ := hC.undo_create h1 h2
    rw [h3]
    exact ⟨hcount, hkeep, he, fun _ _ hpos => absurd hzero hpos.ne'⟩
  refine (initClaims_post.onError fun e w2 h2 => ?_).bind fun _ w2 h2 => ?_
  · refine hundo e w2 ?_ fun he => absurd he h2.2.2
    rw [h2.1]
    exact .refl _
  have hs2 : w1.kernel.Steady w2.kernel := by
    rw [h2]
    exact Kernel.steady_modifyObj _ _ (fun _ => rfl) fun _ => rfl
  refine (((createReal_post hos.real).mapStop ?_).onError
    fun e w3 h3 => ?_).bind fun real w3 h3 => ?_
  · rintro why w3 ⟨-, -, hbad⟩
    exact absurd hsize hbad
  · have hs3 : w1.kernel.Steady w3.kernel := hs2.trans h3.same.calm.toSteady
    refine claimListUninit_post.bind fun _ w4 h4 => ?_
    refine hundo e w4 ?_ fun he => ?_
    · rw [h4]
      exact hs3.trans (Kernel.steady_modifyObj _ _ (fun _ => rfl) fun _ => rfl)
    · have hpos := ((hC1.steady hs2).linked_iff n .realMemory).mp (h3.taken he)
      exact ⟨.realMemory, by simpa [RefCounts.bump] using hpos⟩
  · have hkeep : w2.kernel.Keeps w3.kernel := Counted.keeps_created h3
    have hl2 : w2.kernel.names (objectPath n .activeClaims) = some claims.obj := by
      rw [hs2.names]
      exact hl1
    refine Prog.Post.pure ⟨hzero, ?_, ?_, rfl, fun kind => ?_, fun kind => ?_⟩
    · exact (hC1.steady hs2).create h3 (H.bumped_handle n nofun)
    · exact (Counted.keeps_created h1).trans ((Kernel.Keeps.of_eq hs2.names).trans hkeep)
    · cases kind with
      | realMemory => exact Counted.names_created_self h3
      | activeClaims => exact hkeep _ _ hl2
    · cases kind with
      | realMemory => exact h3.hasOwnership
      | activeClaims => exact h1.hasOwnership

/-- **`ipm_memory_open`** adds a handle, or leaves counts and names alone. -/
theorem ipmMemoryOpen_post (b : Build) (ctx : Context) {os : OpenOs} (access : AccessMode)
    {S : Stop → World → Prop} (hC : Counted w.kernel H) (hos : os.Sound)
    (hroom : ∀ kind, H n kind + 1 < 2 ^ 32) :
    Prog.Post (ipmMemoryOpen b ctx os n access) w
      (fun memory w' => 0 < H n .realMemory ∧ Counted w'.kernel (H.handle n) ∧
        w.kernel.Keeps w'.kernel ∧ memory.LinkedAt n w'.kernel)
      (fun e w' => Counted w'.kernel H ∧ w.kernel.Keeps w'.kernel ∧
        (H n .realMemory = 0 → os.alloc = true → (∃ fd, os.real.shmOpen = .ok fd) →
          (e = .errDoesNotExist ↔ ctx.report .ENOENT = .ENOENT))) S := by
  refine ((openReal_post hC hos.real).mono (fun _ _ h => h) (fun e w' h => ?_)
    (fun _ _ h => h)).bind fun real w1 h1 => ?_
  · rw [h.1]
    refine ⟨hC, fun _ _ hp => hp, fun hzero ha hfd => h.2.2 ?_ ha hfd⟩
    rw [← Option.not_isSome_iff_eq_none, hC.linked_iff, hzero]
    exact Nat.lt_irrefl 0
  have hpos : 0 < H n .realMemory := hC.pos h1.linked
  have hnames : w1.kernel.names = w.kernel.names := by
    rw [h1.kernel]
    rfl
  have hC1 : Counted w1.kernel (H.bump n .realMemory) :=
    hC.opened h1 (H.bumped_bump _ _) (hroom _)
  have hl1 : w1.kernel.names (objectPath n .realMemory) = some real.obj := by
    rw [hnames]
    exact h1.linked
  refine ((openClaims_post hC1 hos.claims).onError fun e w2 h2 => ?_).bind fun claims w2 h2 => ?_
  · rw [← h2.1] at hC1 hl1
    refine (closeAndFree_post hC1 hos.rollback h1.hasOwnership hl1).mapRet fun _ w3 h3 => ?_
    obtain ⟨hcount, hkeep⟩ := hC.undo_open h1 (hroom _)
    rw [h3, h2.1]
    exact ⟨hcount, hkeep, fun hzero => absurd hzero hpos.ne'⟩
  · have hnames2 : w2.kernel.names = w1.kernel.names := by
      rw [h2.kernel]
      rfl
    refine Prog.Post.pure ⟨hpos, ?_, .of_eq (hnames2.trans hnames), rfl, fun kind => ?_,
      fun kind => ?_⟩
    · refine hC1.opened h2 (H.bumped_handle n nofun) ?_
      simpa [RefCounts.bump] using hroom .activeClaims
    · rw [hnames2]
      cases kind with
      | realMemory => exact hl1
      | activeClaims => exact h2.linked
    · cases kind with
      | realMemory => exact h1.hasOwnership
      | activeClaims => exact h2.hasOwnership

/-- A handle that has no claims in its list, which is within its capacity. -/
structure Memory.HoldsNone (memory : Memory) (k : Kernel) : Prop where
  count : (k.objs memory.activeClaims.obj).list.count ≤ realClaimCapacity
  none : ∀ c ∈ (k.objs memory.activeClaims.obj).list.entries, c.procId ≠ memory.realMemory.accessId

instance (memory : Memory) (k : Kernel) : Decidable (memory.HoldsNone k) :=
  decidable_of_iff ((k.objs memory.activeClaims.obj).list.count ≤ realClaimCapacity ∧
      ∀ c ∈ (k.objs memory.activeClaims.obj).list.entries, c.procId ≠ memory.realMemory.accessId)
    ⟨fun h => ⟨h.1, h.2⟩, fun h => ⟨h.count, h.none⟩⟩

/-- **`ipm_memory_close`** removes a handle, and takes no other handle's objects away. -/
theorem ipmMemoryClose_post (b : Build) (ctx : Context) (lock : IpmResult) {osClaims osReal : Os}
    {memory : Memory} {E : IpmResult → World → Prop} {S : Stop → World → Prop}
    (hC : Counted w.kernel (H.handle n))
    (hl : memory.LinkedAt n w.kernel) (hclaims : osClaims.Sound) (hreal : osReal.Sound)
    (hnone : memory.HoldsNone w.kernel) :
    Prog.Post (ipmMemoryClose b ctx lock osClaims osReal memory) w
      (fun _ w' => Counted w'.kernel H ∧ ∀ m j i, w.kernel.names (objectPath m j) = some i →
        0 < H m j → w'.kernel.names (objectPath m j) = some i) E S := by
  have hcount : (w.kernel.objs memory.activeClaims.obj).list.count < 2 ^ 31 :=
    hnone.count.trans_lt (by decide)
  refine (releaseAllAt_none_post hcount hnone.none).bind fun _ w1 h1 => ?_
  rw [← h1] at hC hl ⊢
  have hbump := H.bumped_bump n .realMemory
  have hbump' : (H.bump n .realMemory).Bumped (H.handle n) n .activeClaims :=
    H.bumped_handle n nofun
  refine (closeClaims_post hC hclaims (hl.hasOwnership .activeClaims)
    (hl.names .activeClaims)).bind fun _ w2 h2 => ?_
  have hC2 : Counted w2.kernel (H.bump n .realMemory) := by
    rw [h2]
    exact hC.closed (hl.names .activeClaims) hbump'
  have hnames2 : ∀ m j i, w1.kernel.names (objectPath m j) = some i →
      0 < H.bump n .realMemory m j → w2.kernel.names (objectPath m j) = some i := by
    intro m j i hm hpos
    rw [h2]
    exact hC.names_closed_of_pos (hl.names .activeClaims) hbump' hm hpos
  have hl2 : w2.kernel.names (objectPath n .realMemory) = some memory.realMemory.obj :=
    hnames2 _ _ _ (hl.names .realMemory) (hbump.here ▸ Nat.succ_pos _)
  refine (closeAndFree_post hC2 hreal (hl.hasOwnership .realMemory) hl2).mapRet fun _ w3 h3 => ?_
  rw [h3]
  refine ⟨hC2.closed hl2 hbump, fun m j i hm hpos => ?_⟩
  refine hC2.names_closed_of_pos hl2 hbump (hnames2 m j i hm ?_) hpos
  unfold RefCounts.bump
  split
  · exact Nat.succ_pos _
  · exact hpos

/-- **`ipm_memory_clean`** leaves the kernel alone, however it ends. -/
theorem ipmMemoryClean_keeps (b : Build) (claims real : Os) (memory : Memory) :
    Prog.Keeps World.kernel (ipmMemoryClean b claims real memory) :=
  sharedMemoryBlockClean_keeps.ignore.bind fun _ =>
    sharedMemoryBlockClean_keeps.ignore.bind fun _ => fun _ => ipmFree_post

end Ipm
