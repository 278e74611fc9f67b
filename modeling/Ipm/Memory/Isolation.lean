import Ipm.Memory.CallFrame

/-!
# Blocks of different names

Nothing that is done to one block shows in another. A call goes by a name or by a handle, and what it
changes are the two objects of that name: it makes them, counts in their headers, edits the list of
the claims object, and unlinks them. That the calls find no other object rests on
`make_block_name_based_on_id`, which gives different names different paths, and on the headers, since
the last close unlinks the name it reads there.

The runs are those of `Memory/Lifetime.lean`, with calls that fail and roll back.
-/

set_option autoImplicit false

namespace Ipm

open Lib

/-- `k'` has the objects of `n` as `k` has them. -/
structure Kernel.Apart (n : BlockName) (k k' : Kernel) : Prop where
  names : ∀ kind, k'.names (objectPath n kind) = k.names (objectPath n kind)
  objs : ∀ kind obj, k.names (objectPath n kind) = some obj → k'.objs obj = k.objs obj

namespace Kernel.Apart

variable {k k₁ k₂ : Kernel} {H : RefCounts} {n m : BlockName} {kind : MemoryBlock} {obj : Nat}
variable {size : UInt64} {access : AccessMode} {block : SharedMemoryBlock}

theorem refl (k : Kernel) : k.Apart n k := ⟨fun _ => rfl, fun _ _ _ => rfl⟩

theorem trans (h₁ : k.Apart n k₁) (h₂ : k₁.Apart n k₂) : k.Apart n k₂ := by
  refine ⟨fun kind => (h₂.names kind).trans (h₁.names kind), fun kind obj hl => ?_⟩
  have hl₁ : k₁.names (objectPath n kind) = some obj := (h₁.names kind).trans hl
  exact (h₂.objs kind obj hl₁).trans (h₁.objs kind obj hl)

/-- A call that leaves the objects there were. -/
theorem of_same (hC : Counted k H) (h : k.Same k₁) : k.Apart n k₁ := by
  refine ⟨fun kind => by rw [h.names], fun kind obj hl => ?_⟩
  exact h.objs obj (hC.object n kind obj hl).1

/-- Paths of different names differ. -/
theorem path_ne (hne : m ≠ n) (i j : MemoryBlock) : objectPath n i ≠ objectPath m j :=
  fun h => hne (objectPath_injective h).1.symm

/-- A change of an object of another name. -/
theorem of_modifyObj (hC : Counted k H) (hne : m ≠ n)
    (hl : k.names (objectPath m kind) = some obj) (f : ShmObject → ShmObject) :
    k.Apart n (k.modifyObj obj f) := by
  refine ⟨fun _ => rfl, fun j i hi => ?_⟩
  refine Kernel.objs_modifyObj_ne _ _ ?_
  rintro rfl
  exact hne (hC.unique hi hl).1

/-- A new object under another name. -/
theorem of_created (hC : Counted k H) (hne : m ≠ n)
    (h : Created k m kind.id size access block k₁) : k.Apart n k₁ := by
  rw [h.kernel]
  refine ⟨fun j => ?_, fun j i hi => ?_⟩
  · rw [Kernel.names_build]
    exact if_neg (path_ne hne j kind)
  · exact Kernel.objs_build_ne _ _ _ (Nat.ne_of_lt (hC.object n j i hi).1)

theorem of_opened (hC : Counted k H) (hne : m ≠ n)
    (h : Opened k m kind.id access block k₁) : k.Apart n k₁ := by
  rw [h.kernel]
  exact of_modifyObj hC hne h.linked _

theorem of_closed (hC : Counted k H) (hne : m ≠ n)
    (hl : k.names (objectPath m kind) = some obj) (cell : Cell → Cell) :
    k.Apart n (k.closed (objectPath m kind) obj cell) := by
  unfold Kernel.closed
  split
  · refine (of_modifyObj hC hne hl (ShmObject.retired cell)).trans ⟨fun j => ?_, fun _ _ _ => rfl⟩
    rw [Kernel.names_unlink]
    exact if_neg (path_ne hne j kind)
  · exact of_modifyObj hC hne hl _

end Kernel.Apart

/-- A call for another name leaves the objects of `n` alone. -/
theorem Kernel.Apart.callFrame {n m : BlockName} (hne : m ≠ n) :
    CallFrame (Kernel.Apart n) (fun _ => True) m where
  trans := .trans
  same := .of_same
  claims := by
    intro k k₁ H size access block hC h
    have hl : k₁.names (objectPath m .activeClaims) = some block.obj := Counted.names_created_self h
    exact (of_created hC hne h).trans
      (.of_modifyObj (hC.create h (H.bumped_bump _ _)) hne hl ShmObject.listed)
  real := fun hC h => .of_created hC hne h
  opened := fun _ hC _ h => .of_opened hC hne h
  closed := fun cell hC hl => .of_closed hC hne hl cell

variable {b : Build} {w : World} {n : BlockName}

/-- However `p` ends, the objects of `n` are as they were. -/
abbrev ApartPost {α : Type} (n : BlockName) (p : Call α) (k : Kernel) (w : World) : Prop :=
  Prog.Post p w (fun _ w' => k.Apart n w'.kernel) (fun _ w' => k.Apart n w'.kernel)
    fun _ w' => k.Apart n w'.kernel

/-- The copy's cleaning unmaps and touches no object. -/
theorem ipmMemoryClean_apart (b : Build) (claims real : Os) (memory : Memory) (w : World) :
    ApartPost n (ipmMemoryClean b claims real memory) w.kernel w := by
  refine (ipmMemoryClean_keeps b claims real memory w).mono (fun _ w' h => ?_) (fun _ w' h => ?_)
    fun _ w' h => ?_
  all_goals
    rw [h]
    exact .refl _

namespace LifeSys

/-! ## Whole runs -/

variable {s s' : LifeSys}

/-- The call is for another name than `n`. -/
def Elsewhere (n : BlockName) (s : LifeSys) : LifeEvent → Prop
  | .create _ _ _ m _ => m ≠ n
  | .open _ _ m _ => m ≠ n
  | .close _ _ _ _ i => ∀ memory ∈ s.handles[i]?, memory.blockName ≠ n
  | .regions i _ => ∀ memory ∈ s.handles[i]?, memory.blockName ≠ n
  -- a fork and the cleaning of its copies may be of handles of `n`
  | .fork _ => True
  | .clean _ _ _ _ => True

instance (n : BlockName) (s : LifeSys) : (a : LifeEvent) → Decidable (s.Elsewhere n a)
  | .create _ _ _ m _ => inferInstanceAs (Decidable (m ≠ n))
  | .open _ _ m _ => inferInstanceAs (Decidable (m ≠ n))
  | .close _ _ _ _ i => inferInstanceAs (Decidable (∀ memory ∈ s.handles[i]?, memory.blockName ≠ n))
  | .regions i _ => inferInstanceAs (Decidable (∀ memory ∈ s.handles[i]?, memory.blockName ≠ n))
  | .fork _ => inferInstanceAs (Decidable True)
  | .clean _ _ _ _ => inferInstanceAs (Decidable True)

theorem apart_acquire {k : Kernel} {p : Call Memory} {w : World} (h : ApartPost n p k w) :
    k.Apart n (s.acquire (p w)).kernel := by
  cases hout : p w with
  | ret r w' =>
    cases r with
    | ok memory => exact h.of_ret hout
    | error e => exact h.of_error hout
  | stop why w' => exact h.of_stop hout

/-- A call for another name leaves the objects of `n` alone. -/
theorem LifeOk.apart {a : LifeEvent} (h : LifeOk s) (ha : s.Permitted a) (he : s.Elsewhere n a)
    (hs : LifeSys.step b s a = some s') : s.kernel.Apart n s'.kernel := by
  cases a with
  | create c os blockSize m access =>
    cases hs
    have hpost := (Kernel.Apart.callFrame he).create b c.ctx (w := ⟨s.kernel, c.proc⟩) blockSize
      access h.counted ha
    exact apart_acquire (hpost.mono (fun _ _ hq => hq.1) (fun _ _ hq => hq) fun _ _ hq => hq)
  | «open» c os m access =>
    cases hs
    have hpost := (Kernel.Apart.callFrame he).open b c.ctx (w := ⟨s.kernel, c.proc⟩) access h.counted
      ha.1 (fun _ => ha.2) trivial
    exact apart_acquire (hpost.mono (fun _ _ hq => hq.1) (fun _ _ hq => hq) fun _ _ hq => hq)
  | close c lock claims real i =>
    obtain ⟨memory, hget, rfl⟩ := Option.map_eq_some_iff.mp hs
    obtain ⟨hclaims, hreal, hnone⟩ := ha
    have hl := h.linked memory (List.mem_of_getElem? hget)
    have hC : Counted s.kernel
        ((counts ⟨s.kernel, s.handles.eraseIdx i, s.copies⟩).handle memory.blockName) := by
      rw [counts_eraseIdx s.kernel s.copies hget]
      exact h.counted
    have hpost := (Kernel.Apart.callFrame (he memory hget)).close b c.ctx lock
      (w := ⟨s.kernel, c.proc⟩) hC hl hclaims hreal (hnone memory hget)
    cases hout : ipmMemoryClose b c.ctx lock claims real memory ⟨s.kernel, c.proc⟩ with
    | ret r w =>
      cases r with
      | ok u => exact hpost.of_ret hout
      | error e => exact hpost.of_error hout
    | stop why w => exact hpost.of_stop hout
  | fork i =>
    obtain ⟨memory, -, rfl⟩ := Option.map_eq_some_iff.mp hs
    exact .refl _
  | clean c claims real j =>
    obtain ⟨memory, -, rfl⟩ := Option.map_eq_some_iff.mp hs
    have hpost := ipmMemoryClean_apart (n := n) b claims real memory ⟨s.kernel, c.proc⟩
    cases hout : ipmMemoryClean b claims real memory ⟨s.kernel, c.proc⟩ with
    | ret r w =>
      cases r with
      | ok u => exact hpost.of_ret hout
      | error e => exact hpost.of_error hout
    | stop why w => exact hpost.of_stop hout
  | regions i list =>
    obtain ⟨memory, hget, rfl⟩ := Option.map_eq_some_iff.mp hs
    have hl : s.kernel.names (objectPath memory.blockName .activeClaims) =
        some memory.activeClaims.obj :=
      (h.linked memory (List.mem_of_getElem? hget)).names .activeClaims
    exact .of_modifyObj h.counted (he memory hget) hl fun o => { o with list := list }

/-- The headers count the handles, so where the objects of `n` are the same its handles are as many. -/
theorem LifeOk.live_eq (h : LifeOk s) (h' : LifeOk s') (ha : s.kernel.Apart n s'.kernel) :
    s'.live n = s.live n := by
  cases hl : s.kernel.names (objectPath n .realMemory) with
  | some obj =>
    have hl' : s'.kernel.names (objectPath n .realMemory) = some obj :=
      (ha.names .realMemory).trans hl
    have hr : (s.kernel.objs obj).header.refcount.toNat = s.live n :=
      (h.counted.object _ _ _ hl).2.refcount
    have hr' : (s'.kernel.objs obj).header.refcount.toNat = s'.live n :=
      (h'.counted.object _ _ _ hl').2.refcount
    rw [← hr, ← hr', ha.objs _ _ hl]
  | none =>
    have hzero : ∀ t : LifeSys, LifeOk t → t.kernel.names (objectPath n .realMemory) = none →
        t.live n = 0 := by
      intro t ht hnone
      refine Nat.eq_zero_of_not_pos fun hpos => ?_
      have hsome := (ht.counted.linked_iff n .realMemory).mpr hpos
      rw [hnone] at hsome
      cases hsome
    rw [hzero s h hl, hzero s' h' ((ha.names .realMemory).trans hl)]

/-- **Blocks of different names are apart**: in a run of calls for other names the objects of `n`
keep their links, their sizes, their headers and their contents, and `n` its handles. -/
theorem apart_of_elsewhere (hr : Reach (LifeSys.step b) Permitted init s)
    (hr' : Reach (LifeSys.step b) (fun s a => s.Permitted a ∧ s.Elsewhere n a) s s') :
    s.kernel.Apart n s'.kernel ∧ s'.live n = s.live n := by
  have hok : LifeOk s := hr.invariant lifeOk_init fun _ _ _ h ha hs => h.step ha hs
  have hall : LifeOk s' ∧ s.kernel.Apart n s'.kernel :=
    hr'.invariant (I := fun t => LifeOk t ∧ s.kernel.Apart n t.kernel) ⟨hok, .refl _⟩
      fun _ _ _ h ha hs => ⟨h.1.step ha.1 hs, h.2.trans (h.1.apart ha.1 ha.2 hs)⟩
  exact ⟨hall.2, hok.live_eq hall.1 hall.2⟩

/-- A creation that finds its name taken, one that does not, an open, a fork of a handle of `a`, and a
close. -/
def elsewhere : List LifeEvent :=
  [.create willing createWilling 1 .b .readWrite, .create willing createWilling 1 .b .readWrite,
   .open willing openWilling .b .readOnly, .fork 0, .close willing .success .willing .willing 1]

theorem apart_elsewhere :
    ∃ s s' : LifeSys, s'.handles.length = 2 ∧ s.kernel.Apart .a s'.kernel ∧ s'.live .a = s.live .a := by
  have hcreated : ∃ s, Reach (LifeSys.step ⟨false⟩) Permitted init s ∧
      (runGuarded (LifeSys.step ⟨false⟩) (fun s a => decide (s.Permitted a ∧ s.Elsewhere .a a)) s
        elsewhere).any (fun s => decide (s.handles.length = 2)) = true :=
    exists_reach_of_trace (g := fun s a => decide (s.Permitted a))
      (t := fun s => (runGuarded (LifeSys.step ⟨false⟩)
        (fun s a => decide (s.Permitted a ∧ s.Elsewhere .a a)) s elsewhere).any
          fun s => decide (s.handles.length = 2))
      [.create willing createWilling 1 .a .readWrite] (fun _ _ h => of_decide_eq_true h)
      (fun _ h => h) (by decide +kernel)
  obtain ⟨s, hr, hrest⟩ := hcreated
  obtain ⟨s', hr', hlen⟩ := exists_reach_of_trace (P := fun s : LifeSys => s.handles.length = 2)
    elsewhere (fun _ _ h => of_decide_eq_true h) (fun _ h => of_decide_eq_true h) hrest
  exact ⟨s, s', hlen, apart_of_elsewhere hr hr'⟩

end LifeSys

end Ipm
