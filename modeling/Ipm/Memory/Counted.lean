import Ipm.Memory.Ops

/-!
# Counting references to named objects

`Counted k H` ties the kernel to a count of references kept beside it: `H n kind` says how many
references there are to the object of that name and kind, and the namespace agrees. An object is
linked exactly when somebody refers to it, its header says whose it is, and its `refcount` is the
number of references.

Who counts as a reference is left open. Runs of whole operations count handles, and interleaved
runs count also what half-finished calls hold; both follow from the same four lemmas, one for each
thing a call of `shared_memory.c` can do to the kernel.
-/

set_option autoImplicit false

namespace Ipm

open Lib

/-- Where an object of a block is linked. -/
def objectPath (n : BlockName) (kind : MemoryBlock) : CString :=
  makeBlockNameBasedOnId n.chars kind.id

theorem objectPath_injective {n m : BlockName} {i j : MemoryBlock}
    (h : objectPath n i = objectPath m j) : n = m ∧ i = j := by
  obtain ⟨hname, hid⟩ := makeBlockNameBasedOnId_injective n.length_le m.length_le h
  exact ⟨BlockName.ext hname, MemoryBlock.id_injective hid⟩

/-- How many references there are to each object. -/
abbrev RefCounts : Type := BlockName → MemoryBlock → Nat

/-- `H'` has one reference to `(n, kind)` more than `H`. -/
structure RefCounts.Bumped (H H' : RefCounts) (n : BlockName) (kind : MemoryBlock) : Prop where
  here : H' n kind = H n kind + 1
  elsewhere : ∀ m j, ¬ (m = n ∧ j = kind) → H' m j = H m j

/-- A finished object of `(n, kind)` with `count` references. -/
structure ShmObject.Record (o : ShmObject) (n : BlockName) (kind : MemoryBlock) (count : Nat) :
    Prop where
  length : memoryPageSize.toNat ≤ o.length
  blockId : o.header.blockId = kind.id
  blockName : o.header.blockName = n.chars
  refcount : o.header.refcount.toNat = count

/-- The namespace is what the counts say. -/
structure Counted (k : Kernel) (H : RefCounts) : Prop where
  known : ∀ p obj, k.names p = some obj → ∃ n kind, p = objectPath n kind
  linked_iff : ∀ n kind, (k.names (objectPath n kind)).isSome ↔ 0 < H n kind
  object : ∀ n kind obj, k.names (objectPath n kind) = some obj →
    obj < k.fresh ∧ (k.objs obj).Record n kind (H n kind)

variable {k k' : Kernel} {H H' : RefCounts} {n m : BlockName} {kind j : MemoryBlock} {obj : Nat}
variable {size : UInt64} {access : AccessMode} {block : SharedMemoryBlock}

theorem counted_empty : Counted .empty fun _ _ => 0 where
  known := nofun
  linked_iff := fun _ _ => by simp [Kernel.empty]
  object := nofun

namespace Counted

theorem pos (h : Counted k H) (hl : k.names (objectPath n kind) = some obj) : 0 < H n kind :=
  (h.linked_iff n kind).mp (by rw [hl]; rfl)

theorem serves (h : Counted k H) (hl : k.names (objectPath n kind) = some obj) :
    (k.objs obj).Serves n kind.id := by
  obtain ⟨hlen, hid, hname, hcount⟩ := (h.object n kind obj hl).2
  refine ⟨hlen, fun hzero => ?_, hid, hname⟩
  rw [hzero] at hcount
  exact absurd hcount (h.pos hl).ne

/-- An object is linked under one path only. -/
theorem unique (h : Counted k H) (hn : k.names (objectPath n kind) = some obj)
    (hm : k.names (objectPath m j) = some obj) : m = n ∧ j = kind := by
  have hrn := (h.object n kind obj hn).2
  have hrm := (h.object m j obj hm).2
  exact ⟨BlockName.ext (hrm.blockName.symm.trans hrn.blockName),
    MemoryBlock.id_injective (hrm.blockId.symm.trans hrn.blockId)⟩

theorem refcount_eq_one_iff (h : Counted k H) (hl : k.names (objectPath n kind) = some obj) :
    (k.header obj).refcount = 1 ↔ H n kind = 1 := by
  have hcount : (k.header obj).refcount.toNat = H n kind := (h.object n kind obj hl).2.refcount
  rw [← hcount, ← UInt32.toNat_inj]
  rfl

/-! ## One lemma for each thing that can happen -/

/-- A failed call, or one that only touches a claim list. -/
theorem steady (h : Counted k H) (hs : k.Steady k') : Counted k' H where
  known := by rw [hs.names]; exact h.known
  linked_iff := by rw [hs.names]; exact h.linked_iff
  object := by
    intro n kind obj hl
    rw [hs.names] at hl
    obtain ⟨hlt, hlen, hid, hname, hcount⟩ := h.object n kind obj hl
    have hhd : (k'.objs obj).header = (k.objs obj).header := hs.header obj hlt
    refine ⟨hlt.trans_le hs.fresh, ?_, ?_, ?_, ?_⟩
    · rw [hs.length obj hlt]; exact hlen
    · rw [hhd, hid]
    · rw [hhd, hname]
    · rw [hhd, hcount]

/-- A new object with its creator's reference. -/
theorem create (h : Counted k H) (hc : Created k n kind.id size access block k')
    (hH : H.Bumped H' n kind) : Counted k' H' := by
  have hfree : k.names (objectPath n kind) = none := hc.free
  have hzero : H n kind = 0 := by
    by_contra hne
    have hsome := (h.linked_iff n kind).mpr (Nat.pos_of_ne_zero hne)
    rw [hfree] at hsome
    cases hsome
  have hnames : ∀ p, k'.names p = if p = objectPath n kind then some k.fresh else k.names p := by
    intro p
    rw [hc.kernel]
    exact Kernel.names_build _ _ _ _
  refine ⟨fun p i hp => ?_, fun m j => ?_, fun m j i hl => ?_⟩
  · rw [hnames] at hp
    split at hp
    · exact ⟨n, kind, ‹_›⟩
    · exact h.known p i hp
  · rw [hnames]
    by_cases hmj : m = n ∧ j = kind
    · obtain ⟨rfl, rfl⟩ := hmj
      simp [hH.here]
    · rw [if_neg fun he => hmj (objectPath_injective he), hH.elsewhere m j hmj]
      exact h.linked_iff m j
  · rw [hnames] at hl
    by_cases hmj : m = n ∧ j = kind
    · obtain ⟨rfl, rfl⟩ := hmj
      rw [if_pos rfl, Option.some.injEq] at hl
      subst hl
      rw [hc.kernel, Kernel.objs_build_fresh, hH.here, hzero]
      exact ⟨Nat.lt_succ_self _, Nat.le_add_left _ _, rfl, rfl, rfl⟩
    · rw [if_neg fun he => hmj (objectPath_injective he)] at hl
      obtain ⟨hlt, hrec⟩ := h.object m j i hl
      rw [hc.kernel, hH.elsewhere m j hmj]
      refine ⟨Nat.lt_succ_of_lt hlt, ?_⟩
      rw [Kernel.objs_build_ne _ _ _ hlt.ne]
      exact hrec

/-- Other objects keep their record when `obj`, linked at `(n, kind)`, changes. -/
theorem record_of_ne (h : Counted k H) {f : ShmObject → ShmObject}
    (hl : k.names (objectPath n kind) = some obj) {i : Nat}
    (hm : k.names (objectPath m j) = some i) (hmj : ¬ (m = n ∧ j = kind)) (heq : H' m j = H m j) :
    i < k.fresh ∧ ((k.modifyObj obj f).objs i).Record m j (H' m j) := by
  obtain ⟨hlt, hrec⟩ := h.object m j i hm
  have hi : i ≠ obj := fun he => hmj (h.unique hl (he ▸ hm))
  rw [Kernel.objs_modifyObj_ne _ _ hi, heq]
  exact ⟨hlt, hrec⟩

/-- One more reference to an object that is there. -/
theorem opened (h : Counted k H) (ho : Opened k n kind.id access block k')
    (hH : H.Bumped H' n kind) (hlt : H n kind + 1 < 2 ^ 32) : Counted k' H' := by
  have hl : k.names (objectPath n kind) = some block.obj := ho.linked
  rw [ho.kernel]
  refine ⟨h.known, fun m j => ?_, fun m j i hm => ?_⟩
  · by_cases hmj : m = n ∧ j = kind
    · obtain ⟨rfl, rfl⟩ := hmj
      simp [hl, hH.here]
    · rw [hH.elsewhere m j hmj]
      exact h.linked_iff m j
  · by_cases hmj : m = n ∧ j = kind
    · obtain ⟨rfl, rfl⟩ := hmj
      obtain rfl : block.obj = i := Option.some.inj (hl.symm.trans hm)
      obtain ⟨hfresh, hlen, hid, hname, hcount⟩ := h.object m j _ hl
      rw [Kernel.objs_modifyObj_self, hH.here]
      refine ⟨hfresh, hlen, hid, hname, ?_⟩
      change ((k.objs block.obj).header.refcount + 1).toNat = _
      rw [UInt32.toNat_add, hcount]
      exact Nat.mod_eq_of_lt hlt
    · exact h.record_of_ne hl hm hmj (hH.elsewhere m j hmj)


/-- One reference less; without any the object is unlinked. -/
theorem closed (h : Counted k H) {cell : Cell → Cell}
    (hl : k.names (objectPath n kind) = some obj) (hH : H'.Bumped H n kind) :
    Counted (k.closed (objectPath n kind) obj cell) H' := by
  have hone := h.refcount_eq_one_iff hl
  unfold Kernel.closed
  by_cases hlast : H n kind = 1
  · -- the last one: the path is free again
    have hzero : H' n kind = 0 := by have := hH.here; omega
    rw [if_pos (hone.mpr hlast)]
    have hnames : ∀ p, ((k.modifyObj obj (ShmObject.retired cell)).unlink
        (objectPath n kind)).names p = if p = objectPath n kind then none else k.names p :=
      fun p => Kernel.names_unlink _ _ p
    refine ⟨fun p i hp => ?_, fun m j => ?_, fun m j i hm => ?_⟩
    · rw [hnames] at hp
      split at hp
      · cases hp
      · exact h.known p i hp
    · rw [hnames]
      by_cases hmj : m = n ∧ j = kind
      · obtain ⟨rfl, rfl⟩ := hmj
        simp [hzero]
      · rw [if_neg fun he => hmj (objectPath_injective he), ← hH.elsewhere m j hmj]
        exact h.linked_iff m j
    · rw [hnames] at hm
      by_cases hmj : m = n ∧ j = kind
      · obtain ⟨rfl, rfl⟩ := hmj
        rw [if_pos rfl] at hm
        cases hm
      · rw [if_neg fun he => hmj (objectPath_injective he)] at hm
        exact h.record_of_ne hl hm hmj (hH.elsewhere m j hmj).symm
  · rw [if_neg fun he => hlast (hone.mp he)]
    have hpos := h.pos hl
    refine ⟨h.known, fun m j => ?_, fun m j i hm => ?_⟩
    · by_cases hmj : m = n ∧ j = kind
      · obtain ⟨rfl, rfl⟩ := hmj
        have hhere := hH.here
        simp only [Kernel.names_modifyObj, hl, Option.isSome_some, true_iff]
        omega
      · rw [← hH.elsewhere m j hmj]
        exact h.linked_iff m j
    · by_cases hmj : m = n ∧ j = kind
      · obtain ⟨rfl, rfl⟩ := hmj
        obtain rfl : obj = i := Option.some.inj (hl.symm.trans hm)
        obtain ⟨hfresh, hlen, hid, hname, hcount⟩ := h.object m j _ hl
        rw [Kernel.objs_modifyObj_self]
        refine ⟨hfresh, hlen, hid, hname, ?_⟩
        change ((k.objs obj).header.refcount - 1).toNat = _
        have hle : (1 : UInt32) ≤ (k.objs obj).header.refcount := by
          rw [UInt32.le_iff_toNat_le, hcount]
          exact hpos
        rw [UInt32.toNat_sub_of_le _ _ hle, hcount, hH.here]
        rfl
      · exact h.record_of_ne hl hm hmj (hH.elsewhere m j hmj).symm

/-- A name stays linked to its object through a close that is not its last one. -/
theorem names_closed (h : Counted k H) {cell : Cell → Cell} {i : Nat}
    (hl : k.names (objectPath n kind) = some obj) (hm : k.names (objectPath m j) = some i)
    (hne : ¬ (m = n ∧ j = kind) ∨ 1 < H n kind) :
    (k.closed (objectPath n kind) obj cell).names (objectPath m j) = some i := by
  have hone := h.refcount_eq_one_iff hl
  unfold Kernel.closed
  split
  · rename_i hlast
    rcases hne with hmj | hmore
    · exact (Function.update_of_ne (fun he => hmj (objectPath_injective he)) _ _).trans hm
    · exact absurd (hone.mp hlast) hmore.ne'
  · exact hm

/-- A created object is linked where it belongs. -/
theorem names_created_self (hc : Created k n kind.id size access block k') :
    k'.names (objectPath n kind) = some block.obj := by
  rw [hc.kernel, hc.obj]
  exact Kernel.names_build_self _ _ _

/-- A name stays linked to its object when another one is created. -/
theorem names_created (hc : Created k n kind.id size access block k') {p : CString}
    {i : Nat} (hm : k.names p = some i) : k'.names p = some i := by
  rw [hc.kernel, Kernel.names_build, if_neg]
  · exact hm
  · rintro rfl
    rw [hc.free] at hm
    cases hm

end Counted

end Ipm
