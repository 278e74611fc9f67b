import Ipm.Memory.CallFrame

/-!
# What a call leaves of other handles' objects

A handle is created, opened or closed while the other handles of the block are in use. What they rely
on are two things in the shared objects: the claim list, and the counter the access ids come from. Both
survive every call: a list is only ever replaced by making a new object, and the counter never goes back,
whether the call succeeds, fails or rolls back.
-/

set_option autoImplicit false

namespace Ipm

open Lib

/-- Of the linked objects, `k'` has the claim lists of `k`, and counters that have not gone back. The
other linked objects are new. -/
structure Kernel.Carries (k k' : Kernel) : Prop where
  fresh : k.fresh ≤ k'.fresh
  list : ∀ n obj, k'.names (objectPath n .activeClaims) = some obj →
    k.names (objectPath n .activeClaims) = some obj ∧ (k'.objs obj).list = (k.objs obj).list ∨
      k.fresh ≤ obj ∧ (k'.objs obj).list = claimListInit zeroList realClaimCapacity
  idCounter : ∀ n obj, k'.names (objectPath n .realMemory) = some obj →
    k.names (objectPath n .realMemory) = some obj ∧
        (k.header obj).idCounter ≤ (k'.header obj).idCounter ∨
      k.fresh ≤ obj

/-- The next access id of the block is not the last there is. -/
def Kernel.IdRoom (k : Kernel) (n : BlockName) : Prop :=
  ∀ obj ∈ k.names (objectPath n .realMemory), (k.header obj).idCounter.toNat + 1 < 2 ^ 64

instance (k : Kernel) (n : BlockName) : Decidable (k.IdRoom n) :=
  inferInstanceAs (Decidable (∀ obj ∈ k.names (objectPath n .realMemory), _))

namespace Kernel.Carries

variable {k k₁ k₂ : Kernel} {H : RefCounts} {n : BlockName} {kind : MemoryBlock} {obj : Nat}
variable {size : UInt64} {access : AccessMode} {block : SharedMemoryBlock}

theorem of_same (hC : Counted k H) (h : k.Same k₁) : k.Carries k₁ := by
  refine ⟨h.fresh, fun n obj hl => .inl ?_, fun n obj hl => .inl ?_⟩
  all_goals
    rw [h.names] at hl
    have hlt : obj < k.fresh := (hC.object n _ obj hl).1
  · exact ⟨hl, by rw [h.objs obj hlt]⟩
  · refine ⟨hl, ?_⟩
    rw [Kernel.header, Kernel.header, h.objs obj hlt]
    exact UInt64.le_refl _

theorem refl (hC : Counted k H) : k.Carries k := .of_same hC (.refl k)

theorem trans (h₁ : k.Carries k₁) (h₂ : k₁.Carries k₂) : k.Carries k₂ := by
  refine ⟨h₁.fresh.trans h₂.fresh, fun n obj hl => ?_, fun n obj hl => ?_⟩
  · rcases h₂.list n obj hl with ⟨hl₁, heq⟩ | ⟨hnew, heq⟩
    · rw [heq]
      exact h₁.list n obj hl₁
    · exact .inr ⟨h₁.fresh.trans hnew, heq⟩
  · rcases h₂.idCounter n obj hl with ⟨hl₁, hle⟩ | hnew
    · exact (h₁.idCounter n obj hl₁).imp_left fun h => ⟨h.1, UInt64.le_trans h.2 hle⟩
    · exact .inr (h₁.fresh.trans hnew)

/-- A change of one object that keeps its list, and its counter where access ids come from it. -/
theorem of_modifyObj {f : ShmObject → ShmObject} (hC : Counted k H)
    (hl : k.names (objectPath n kind) = some obj) (hlist : ∀ o, (f o).list = o.list)
    (hid : kind = .realMemory →
      (k.header obj).idCounter ≤ (f (k.objs obj)).header.idCounter) :
    k.Carries (k.modifyObj obj f) := by
  refine ⟨le_rfl, fun m i hm => .inl ⟨hm, ?_⟩, fun m i hm => .inl ⟨hm, ?_⟩⟩
  · by_cases hi : i = obj
    · rw [hi, Kernel.objs_modifyObj_self, hlist]
    · rw [Kernel.objs_modifyObj_ne _ _ hi]
  · rw [Kernel.names_modifyObj] at hm
    by_cases hi : i = obj
    · obtain rfl := hi
      rw [Kernel.header, Kernel.header, Kernel.objs_modifyObj_self]
      exact hid (hC.unique hm hl).2
    · rw [Kernel.header, Kernel.header, Kernel.objs_modifyObj_ne _ _ hi]
      exact UInt64.le_refl _

theorem of_opened (hC : Counted k H) (h : Opened k n kind.id access block k₁)
    (hroom : kind = .realMemory → k.IdRoom n) : k.Carries k₁ := by
  rw [h.kernel]
  refine .of_modifyObj hC h.linked (fun _ => rfl) fun hkind => ?_
  obtain rfl := hkind
  have hlt : (k.header block.obj).idCounter.toNat + 1 < 2 ^ 64 := hroom rfl block.obj h.linked
  show (k.header block.obj).idCounter ≤ (k.header block.obj).idCounter + 1
  rw [UInt64.le_iff_toNat_le, UInt64.toNat_add]
  exact (Nat.le_succ _).trans_eq (Nat.mod_eq_of_lt hlt).symm

/-- A close unlinks at most, and leaves the list in the object. -/
theorem of_closed (hC : Counted k H) (hl : k.names (objectPath n kind) = some obj)
    (cell : Cell → Cell) : k.Carries (k.closed (objectPath n kind) obj cell) := by
  unfold Kernel.closed
  split
  · have h : k.Carries (k.modifyObj obj (ShmObject.retired cell)) :=
      .of_modifyObj hC hl (fun _ => rfl) fun _ => UInt64.le_refl _
    have hsub : ∀ p i, ((k.modifyObj obj (ShmObject.retired cell)).unlink
        (objectPath n kind)).names p = some i → k.names p = some i := by
      intro p i hp
      rw [Kernel.names_unlink] at hp
      split at hp
      · cases hp
      · exact hp
    exact ⟨h.fresh, fun m i hm => h.list m i (hsub _ _ hm), fun m i hm => h.idCounter m i (hsub _ _ hm)⟩
  · exact .of_modifyObj hC hl (fun _ => rfl) fun _ => UInt64.le_refl _

/-- The two objects of a block, and those of different blocks, have different paths. -/
theorem path_ne (m n : BlockName) {i j : MemoryBlock} (hij : i ≠ j) :
    objectPath m i ≠ objectPath n j := fun he => hij (objectPath_injective he).2

/-- A new real memory. -/
theorem of_created_real (hC : Counted k H)
    (h : Created k n MemoryBlock.realMemory.id size access block k₁) : k.Carries k₁ := by
  have hkernel : k₁ = k.build (objectPath n .realMemory)
      (createdObject n MemoryBlock.realMemory.id size) := h.kernel
  rw [hkernel]
  refine ⟨Nat.le_succ _, fun m i hm => .inl ?_, fun m i hm => ?_⟩
  · have hne : objectPath m .activeClaims ≠ objectPath n .realMemory := path_ne m n nofun
    rw [Kernel.names_build, if_neg hne] at hm
    have hlt : i < k.fresh := (hC.object m .activeClaims i hm).1
    rw [Kernel.objs_build_ne _ _ _ hlt.ne]
    exact ⟨hm, rfl⟩
  · rw [Kernel.names_build] at hm
    split at hm
    · exact .inr (Option.some.inj hm).le
    · have hlt : i < k.fresh := (hC.object m .realMemory i hm).1
      refine .inl ⟨hm, ?_⟩
      rw [Kernel.header, Kernel.header, Kernel.objs_build_ne _ _ _ hlt.ne]
      exact UInt64.le_refl _

/-- A new claims object, and its list set up. -/
theorem of_created_claims (hC : Counted k H)
    (h : Created k n MemoryBlock.activeClaims.id size access block k₁) :
    k.Carries (k₁.modifyObj block.obj ShmObject.listed) := by
  have hkernel : k₁ = k.build (objectPath n .activeClaims)
      (createdObject n MemoryBlock.activeClaims.id size) := h.kernel
  rw [hkernel, h.obj]
  refine ⟨Nat.le_succ _, fun m i hm => ?_, fun m i hm => .inl ?_⟩
  · rw [Kernel.names_modifyObj, Kernel.names_build] at hm
    split at hm
    · obtain rfl := Option.some.inj hm
      rw [Kernel.objs_modifyObj_self, Kernel.objs_build_fresh]
      exact .inr ⟨le_rfl, rfl⟩
    · have hlt : i < k.fresh := (hC.object m .activeClaims i hm).1
      rw [Kernel.objs_modifyObj_ne _ _ hlt.ne, Kernel.objs_build_ne _ _ _ hlt.ne]
      exact .inl ⟨hm, rfl⟩
  · have hne : objectPath m .realMemory ≠ objectPath n .activeClaims := path_ne m n nofun
    rw [Kernel.names_modifyObj, Kernel.names_build, if_neg hne] at hm
    have hlt : i < k.fresh := (hC.object m .realMemory i hm).1
    refine ⟨hm, ?_⟩
    rw [Kernel.header, Kernel.header, Kernel.objs_modifyObj_ne _ _ hlt.ne,
      Kernel.objs_build_ne _ _ _ hlt.ne]
    exact UInt64.le_refl _

/-- A call for any name, as long as there are access ids for those who open. -/
theorem callFrame (m : BlockName) : CallFrame Kernel.Carries (fun k => k.IdRoom m) m where
  trans := .trans
  same := .of_same
  claims := .of_created_claims
  real := .of_created_real
  opened := fun _ hC hroom h => .of_opened hC h hroom
  closed := fun cell hC hl => .of_closed hC hl cell

end Kernel.Carries

end Ipm
