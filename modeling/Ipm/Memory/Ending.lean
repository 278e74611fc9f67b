import Ipm.Claim.Ending
import Ipm.Memory.Machine
import Ipm.Memory.Unmap

/-!
# Every call ends

A call can be stopped half-way: by an assertion, by a header page that is not in the file, or by the wait
of `shared_memory_block_open` for a reference count that nobody will write. What it has done so far stays,
and the next process finds it.

On the machine none of this happens (`ends_of_run`): whatever has been created, opened, forked, cleaned,
remapped, claimed and closed before, a call comes to its end, with an error perhaps. What is left is three
assertions about what is asked for: a block of no bytes, a region of no bytes, and a block cut shorter by a
handle that does not know its size.
-/

set_option autoImplicit false

namespace Ipm

open Lib

/-! ## Header pages stay -/

/-- The header pages of `k` are still there. -/
structure Kernel.Paged (k k' : Kernel) : Prop where
  fresh : k.fresh ≤ k'.fresh
  page : ∀ i < k.fresh, memoryPageSize.toNat ≤ (k.objs i).length →
    memoryPageSize.toNat ≤ (k'.objs i).length

/-- A handle, or a copy of one, whose objects have their header pages. -/
structure Memory.Mapped (memory : Memory) (k : Kernel) : Prop where
  closable : memory.Closable k
  claims : memory.activeClaims.obj < k.fresh
  real : memory.realMemory.obj < k.fresh

namespace Kernel.Paged

variable {k k₁ k₂ : Kernel} {obj : Nat}

theorem of_length (hfresh : k.fresh ≤ k₁.fresh)
    (h : ∀ i < k.fresh, (k₁.objs i).length = (k.objs i).length) : k.Paged k₁ :=
  ⟨hfresh, fun _ hi hpage => hpage.trans_eq (h _ hi).symm⟩

theorem refl (k : Kernel) : k.Paged k := .of_length (Nat.le_refl _) fun _ _ => rfl

theorem trans (h₁ : k.Paged k₁) (h₂ : k₁.Paged k₂) : k.Paged k₂ :=
  ⟨h₁.fresh.trans h₂.fresh, fun _ hi hpage => h₂.page _ (hi.trans_le h₁.fresh) (h₁.page _ hi hpage)⟩

theorem of_modifyObj (k : Kernel) (obj : Nat) {f : ShmObject → ShmObject}
    (h : ∀ o, (f o).length = o.length) : k.Paged (k.modifyObj obj f) := by
  refine .of_length (Nat.le_refl _) fun i _ => ?_
  by_cases hi : i = obj
  · rw [hi, Kernel.objs_modifyObj_self, h]
  · rw [Kernel.objs_modifyObj_ne _ _ hi]

theorem of_build (k : Kernel) (path : CString) (o : ShmObject) : k.Paged (k.build path o) :=
  .of_length (Nat.le_succ _) fun _ hi => congrArg _ (Kernel.objs_build_ne _ _ _ hi.ne)

theorem of_closed (k : Kernel) (path : CString) (obj : Nat) (cell : Cell → Cell) :
    k.Paged (k.closed path obj cell) := by
  unfold Kernel.closed
  split
  · have h : k.Paged (k.modifyObj obj (ShmObject.retired cell)) := .of_modifyObj k obj fun _ => rfl
    exact ⟨h.fresh, h.page⟩
  · exact .of_modifyObj k obj fun _ => rfl

theorem of_resized (h : k.Resized obj k₁) : k.Paged k₁ := by
  refine ⟨h.fresh.ge, fun i _ hpage => ?_⟩
  by_cases hi : i = obj
  · rw [hi] at hpage ⊢
    exact h.length hpage
  · rw [h.others i hi]
    exact hpage

/-- Whole calls cut no header page off. -/
theorem callFrame (m : BlockName) : CallFrame Kernel.Paged (fun _ => True) m where
  trans := Paged.trans
  same := fun _ h => .of_length h.fresh fun i hi => congrArg _ (h.objs i hi)
  claims := by
    intro k k₁ H size access block _ h
    rw [h.kernel]
    exact (of_build _ _ _).trans (.of_modifyObj _ _ fun _ => rfl)
  real := by
    intro k k₁ H size access block _ h
    rw [h.kernel]
    exact of_build _ _ _
  opened := by
    intro k k₁ H access block kind _ _ h
    rw [h.kernel]
    exact .of_modifyObj _ _ fun _ => rfl
  closed := fun cell _ _ => of_closed _ _ _ cell

end Kernel.Paged

section Mapped

variable {memory : Memory} {k k' : Kernel} {H : RefCounts} {n : BlockName}

theorem Memory.LinkedAt.mapped (h : memory.LinkedAt n k) (hC : Counted k H) : memory.Mapped k where
  closable := ⟨(hC.serves (h.names .activeClaims)).length, (hC.serves (h.names .realMemory)).length,
    h.hasOwnership .activeClaims, h.hasOwnership .realMemory⟩
  claims := (hC.object _ _ _ (h.names .activeClaims)).1
  real := (hC.object _ _ _ (h.names .realMemory)).1

theorem Memory.Mapped.paged (h : memory.Mapped k) (hp : k.Paged k') : memory.Mapped k' where
  closable := ⟨hp.page _ h.claims h.closable.claims, hp.page _ h.real h.closable.real,
    h.closable.claimsFree, h.closable.realFree⟩
  claims := h.claims.trans_le hp.fresh
  real := h.real.trans_le hp.fresh

end Mapped

/-! ## Whole calls -/

namespace LifeSys

variable {b : Build} {s s' : LifeSys} {a : LifeEvent}

/-- The copies that forks have made can be cleaned, whatever has become of their blocks. -/
def CopiesOk (s : LifeSys) : Prop := ∀ memory ∈ s.copies, memory.Mapped s.kernel

theorem CopiesOk.paged {k : Kernel} {handles copies : List Memory} (h : CopiesOk s)
    (hp : s.kernel.Paged k) (hcopies : ∀ memory ∈ copies, memory ∈ s.copies) :
    CopiesOk ⟨k, handles, copies⟩ :=
  fun memory hm => (h memory (hcopies memory hm)).paged hp

theorem CopiesOk.acquire {p : Call Memory} {w : World} {Q : Memory → World → Prop} (h : CopiesOk s)
    (hpost : Prog.Post p w (fun memory w' => s.kernel.Paged w'.kernel ∧ Q memory w')
      (fun _ w' => s.kernel.Paged w'.kernel) fun _ w' => s.kernel.Paged w'.kernel) :
    CopiesOk (s.acquire (p w)) := by
  cases hout : p w with
  | ret r w' =>
    cases r with
    | ok memory => exact h.paged (hpost.of_ret hout).1 fun _ hm => hm
    | error e => exact h.paged (hpost.of_error hout) fun _ hm => hm
  | stop why w' => exact h.paged (hpost.of_stop hout) fun _ hm => hm

theorem CopiesOk.step (h : CopiesOk s) (hok : LifeOk s) (ha : s.Permitted a)
    (hs : LifeSys.step b s a = some s') : CopiesOk s' := by
  cases a with
  | create c os blockSize n access =>
    cases hs
    exact h.acquire ((Kernel.Paged.callFrame n).create b c.ctx (w := ⟨s.kernel, c.proc⟩) blockSize access
      hok.counted ha)
  | «open» c os n access =>
    cases hs
    exact h.acquire ((Kernel.Paged.callFrame n).open b c.ctx (w := ⟨s.kernel, c.proc⟩) access
      hok.counted ha.1 (fun _ => ha.2) trivial)
  | close c lock claims real i =>
    obtain ⟨memory, hget, rfl⟩ := Option.map_eq_some_iff.mp hs
    obtain ⟨hclaims, hreal, hnone⟩ := ha
    have hl := hok.linked memory (List.mem_of_getElem? hget)
    have hC : Counted s.kernel
        ((counts ⟨s.kernel, s.handles.eraseIdx i, s.copies⟩).handle memory.blockName) := by
      rw [counts_eraseIdx s.kernel s.copies hget]
      exact hok.counted
    have hpost := (Kernel.Paged.callFrame memory.blockName).close b c.ctx lock
      (w := ⟨s.kernel, c.proc⟩) hC hl hclaims hreal (hnone memory hget)
    cases hout : ipmMemoryClose b c.ctx lock claims real memory ⟨s.kernel, c.proc⟩ with
    | ret r w =>
      cases r with
      | ok u => exact h.paged (hpost.of_ret hout) fun _ hm => hm
      | error e => exact h.paged (hpost.of_error hout) fun _ hm => hm
    | stop why w => exact h.paged (hpost.of_stop hout) fun _ hm => hm
  | fork i =>
    obtain ⟨memory, hget, rfl⟩ := Option.map_eq_some_iff.mp hs
    intro u hu
    rcases List.mem_append.mp hu with hold | hnew
    · exact h u hold
    · obtain rfl := List.mem_singleton.mp hnew
      exact (hok.linked u (List.mem_of_getElem? hget)).mapped hok.counted
  | clean c claims real j =>
    obtain ⟨memory, -, rfl⟩ := Option.map_eq_some_iff.mp hs
    have hpost := ipmMemoryClean_keeps b claims real memory ⟨s.kernel, c.proc⟩
    have hkept : ∀ {k : Kernel}, k = s.kernel → s.kernel.Paged k := by
      rintro _ rfl
      exact .refl _
    cases hout : ipmMemoryClean b claims real memory ⟨s.kernel, c.proc⟩ with
    | ret r w =>
      cases r with
      | ok u => exact h.paged (hkept (hpost.of_ret hout)) fun _ hm => List.mem_of_mem_eraseIdx hm
      | error e => exact h.paged (hkept (hpost.of_error hout)) fun _ hm => List.mem_of_mem_eraseIdx hm
    | stop why w => exact h.paged (hkept (hpost.of_stop hout)) fun _ hm => hm
  | regions i list =>
    obtain ⟨memory, -, rfl⟩ := Option.map_eq_some_iff.mp hs
    refine h.paged ?_ fun _ hm => hm
    exact .of_modifyObj _ _ fun _ => rfl

/-- Why the process is stopped in a whole call. -/
def ending (b : Build) (s : LifeSys) : LifeEvent → Option Stop
  | .create c os blockSize n access =>
    (ipmMemoryCreate b c.ctx os blockSize n access ⟨s.kernel, c.proc⟩).stopped?
  | .open c os n access => (ipmMemoryOpen b c.ctx os n access ⟨s.kernel, c.proc⟩).stopped?
  | .close c lock claims real i => (s.handles[i]?).bind fun memory =>
      (ipmMemoryClose b c.ctx lock claims real memory ⟨s.kernel, c.proc⟩).stopped?
  | .fork _ => none
  | .clean c claims real j => (s.copies[j]?).bind fun memory =>
      (ipmMemoryClean b claims real memory ⟨s.kernel, c.proc⟩).stopped?
  | .regions _ _ => none

/-- **A whole call comes to its end**, unless it is to create a block of no bytes, or of so many that
rounding up to pages leaves none. -/
theorem LifeOk.ending {why : Stop} (h : LifeOk s) (hcopies : CopiesOk s) (ha : s.Permitted a)
    (hwhy : why ∈ s.ending b a) :
    why = .assertion ∧ b.ndebug = false ∧
      ∃ c os size n access, a = .create c os size n access ∧ ¬ (size > 0 ∧ roundSize size > 0) := by
  cases a with
  | create c os size n access =>
    have hpost := ipmMemoryCreate_post b c.ctx size n access (w := ⟨s.kernel, c.proc⟩) h.counted ha
    obtain ⟨w, rfl, -, hrequest⟩ := hpost.of_stopped? hwhy
    obtain ⟨hndebug, hsize⟩ := not_or.mp hrequest
    exact ⟨rfl, Bool.eq_false_iff.mpr hndebug, c, os, size, n, access, rfl, hsize⟩
  | «open» c os n access =>
    have hpost := ipmMemoryOpen_post b c.ctx access (w := ⟨s.kernel, c.proc⟩) (n := n)
      (S := fun _ _ => False) h.counted ha.1 fun _ => ha.2
    obtain ⟨w, hstop⟩ := hpost.of_stopped? hwhy
    exact hstop.elim
  | close c lock claims real i =>
    obtain ⟨memory, hget, hwhy⟩ := Option.bind_eq_some_iff.mp hwhy
    obtain ⟨hclaims, hreal, hnone⟩ := ha
    have hC : Counted s.kernel
        ((counts ⟨s.kernel, s.handles.eraseIdx i, s.copies⟩).handle memory.blockName) := by
      rw [counts_eraseIdx s.kernel s.copies hget]
      exact h.counted
    have hpost := ipmMemoryClose_post b c.ctx lock (w := ⟨s.kernel, c.proc⟩) (E := fun _ _ => False)
      (S := fun _ _ => False) hC (h.linked memory (List.mem_of_getElem? hget)) hclaims hreal
      (hnone memory hget)
    obtain ⟨w, hstop⟩ := hpost.of_stopped? hwhy
    exact hstop.elim
  | fork i => cases hwhy
  | clean c claims real j =>
    obtain ⟨memory, hget, hwhy⟩ := Option.bind_eq_some_iff.mp hwhy
    have hmapped := hcopies memory (List.mem_of_getElem? hget)
    have hpost := ipmMemoryClean_unmaps (w := ⟨s.kernel, c.proc⟩) (E := fun _ _ => False)
      (S := fun _ _ => False) b claims real hmapped.closable
    obtain ⟨w, hstop⟩ := hpost.of_stopped? hwhy
    exact hstop.elim
  | regions i list => cases hwhy

end LifeSys

/-! ## Remapping calls -/

section Remapping

variable {b : Build} {ctx : Context} {os : Os} {e : RemapEnv} {w : World} {memory : Memory}
variable {block : SharedMemoryBlock} {mode : AccessMode} {newSize : UInt64}
variable {E : IpmResult → World → Prop} {S : Stop → World → Prop}

theorem updateMapping_returns (hpage : memoryPageSize.toNat ≤ (w.kernel.objs block.obj).length) :
    Prog.Post (sharedMemoryBlockUpdateMapping ctx os block mode) w (fun _ _ => True) E S := by
  unfold sharedMemoryBlockUpdateMapping
  refine (getHeader_post hpage).bind fun hd w1 h1 => ?_
  dsimp only
  split
  · exact Prog.Post.pure trivial
  · refine munmap_post.bind fun _ w2 h2 => mmap_post.bind fun r w3 h3 => ?_
    cases r with
    | none => exact ipmError_post.bind fun _ w4 h4 => Prog.Post.pure trivial
    | some addr => exact Prog.Post.pure trivial

/-- The assertions of a growth: what is asked for is less than the block has, or nothing. -/
theorem growCheck_returns (hpage : memoryPageSize.toNat ≤ (w.kernel.objs block.obj).length) :
    Prog.Post (growCheck b ctx block newSize) w
      (fun r w' => w'.kernel = w.kernel ∧
        ∀ size ∈ r, size = roundSize newSize ∧ ¬ roundSize newSize < block.size)
      E fun why _ => why = .assertion ∧ b.ndebug = false ∧ ¬ roundSize newSize < block.size ∧
        ¬ ((w.kernel.header block.obj).blockSize ≤ roundSize newSize ∧ roundSize newSize > 0) := by
  unfold growCheck
  split
  · exact ipmError_post.bind fun _ w1 h1 => Prog.Post.pure ⟨h1, nofun⟩
  · rename_i hle
    unfold resizeCheck
    have hasked : ∀ {w₁ : World} {c : Bool}, w₁ = w →
        (c = false → ¬ ((w.kernel.header block.obj).blockSize ≤ roundSize newSize ∧
          roundSize newSize > 0)) →
        Prog.Post (Prog.assert b c : Call Unit) w₁ (fun _ w' => w' = w) E fun why _ =>
          why = .assertion ∧ b.ndebug = false ∧ ¬ roundSize newSize < block.size ∧
            ¬ ((w.kernel.header block.obj).blockSize ≤ roundSize newSize ∧ roundSize newSize > 0) :=
      fun hw hc => Prog.Post.asserted.mono (fun _ _ h => h.1.trans hw) (fun _ _ h => h)
        fun _ _ h => ⟨h.1, h.2.2.1, hle, hc h.2.2.2⟩
    have hmask : ((roundSize newSize &&& memoryPageSizeMask) == 0) = true :=
      beq_iff_eq.mpr (roundSize_mask newSize)
    refine Prog.Post.bind (Q := fun _ w' => w' = w) ?_ fun _ w1 h1 => ?_
    · refine (getHeader_post hpage).bind fun hd w1 h1 => ?_
      obtain ⟨rfl, rfl⟩ := h1
      refine (hasked rfl fun hc h => of_decide_eq_false hc h.1).bind fun _ w2 h2 => ?_
      refine (hasked h2 fun hc => absurd (hmask.symm.trans hc) nofun).bind fun _ w3 h3 => ?_
      exact hasked h3 fun hc h => of_decide_eq_false hc h.2
    · refine Prog.Post.pure ⟨congrArg World.kernel h1, ?_⟩
      rintro _ ⟨⟩
      exact ⟨rfl, hle⟩

/-- The critical section of a growth that leaves room for the header page. -/
theorem resizeSection_returns {lock : IpmResult}
    (hpage : memoryPageSize.toNat ≤ (w.kernel.objs block.obj).length)
    (hroom : newSize.toNat + memoryPageSize.toNat < 2 ^ 64) :
    Prog.Post (resizeSection ctx os lock block newSize) w
      (fun _ w' => memoryPageSize.toNat ≤ (w'.kernel.objs block.obj).length) E S := by
  unfold resizeSection
  split
  · refine ipmError_post.bind fun _ w1 h1 => Prog.Post.pure ?_
    rw [h1]
    exact hpage
  · refine (getHeader_post hpage).bind fun hd w1 h1 => ?_
    obtain ⟨rfl, rfl⟩ := h1
    split
    · exact Prog.Post.pure hpage
    · refine ftruncate_post.bind fun done w2 h2 => ?_
      cases done with
      | true =>
        obtain ⟨-, -, h2⟩ := h2
        have hlen : (w2.kernel.objs block.obj).length = (memoryPageSize + newSize).toNat := by
          rw [h2]
          exact (congrArg _ (Kernel.objs_modifyObj_self _ _ _)).trans (ShmObject.length_resize _ _)
        have hpage' : memoryPageSize.toNat ≤ (w2.kernel.objs block.obj).length := by
          rw [hlen, UInt64.toNat_add, Nat.add_comm, Nat.mod_eq_of_lt hroom]
          exact Nat.le_add_left _ _
        refine (setHeader_post hpage').bind fun _ w3 h3 => Prog.Post.pure ?_
        rw [h3, Kernel.objs_modifyObj_self]
        exact hpage'
      | false =>
        refine ipmError_post.bind fun _ w3 h3 => errno_post.bind fun e w4 h4 => Prog.Post.pure ?_
        rw [h4, h3, h2]
        exact hpage

theorem resizeRemap_returns {sec : Section}
    (hpage : memoryPageSize.toNat ≤ (w.kernel.objs block.obj).length) :
    Prog.Post (resizeRemap ctx os block newSize sec) w (fun _ _ => True) E S := by
  cases sec with
  | refused res => exact Prog.Post.pure trivial
  | same =>
    rw [resizeRemap]
    split
    · exact updateMapping_returns hpage
    · exact Prog.Post.pure trivial
  | grown => exact updateMapping_returns hpage

/-- A growth to less than the block has, or to nothing, by a handle that has no more than that. -/
def Shortens (memory : Memory) (k : Kernel) (call : RemapCall) : Prop :=
  ∃ newSize ∈ RemapSys.growth call, ¬ roundSize newSize < memory.realMemory.size ∧
    ¬ ((k.header memory.realMemory.obj).blockSize ≤ roundSize newSize ∧ roundSize newSize > 0)

/-- **A remapping call comes to its end**, unless it is to cut the block. -/
theorem RemapCall.run_returns (call : RemapCall) (hroom : LeavesRoom memory call)
    (hpage : memoryPageSize.toNat ≤ (w.kernel.objs memory.realMemory.obj).length) :
    Prog.Post (call.run b e memory) w (fun _ _ => True) E fun why _ =>
      why = .assertion ∧ b.ndebug = false ∧ Shortens memory w.kernel call := by
  have hremap : ∀ {mode : AccessMode} {S : Stop → World → Prop},
      Prog.Post (sharedMemoryBlockUpdateMapping e.ctx e.os memory.realMemory mode) w (fun _ _ => True) E S :=
    updateMapping_returns hpage
  cases call with
  | sync =>
    rw [run, ipmMemorySync]
    refine Prog.Post.bind (Q := fun _ _ => True) ?_ fun _ _ _ => Prog.Post.pure trivial
    exact hremap.bind fun _ _ _ => Prog.Post.pure trivial
  | changeAccess access =>
    rw [run, ipmMemoryChangeAccess]
    refine Prog.Post.bind (Q := fun _ _ => True) ?_ fun _ _ _ => Prog.Post.pure trivial
    exact hremap.bind fun _ _ _ => Prog.Post.pure trivial
  | resizeGrow newSize =>
    rw [run, resizeGrowNoted]
    refine ((growCheck_returns hpage).mapStop fun why _ h =>
      ⟨h.1, h.2.1, newSize, rfl, h.2.2.1, h.2.2.2⟩).bind fun r w1 h1 => ?_
    obtain ⟨hk, hsize⟩ := h1
    cases r with
    | none => exact Prog.Post.pure trivial
    | some size =>
      obtain ⟨rfl, hle⟩ := hsize size rfl
      have hlt := (hroom newSize rfl).resolve_left hle
      have hpage1 : memoryPageSize.toNat ≤ (w1.kernel.objs memory.realMemory.obj).length := by
        rw [hk]
        exact hpage
      refine (resizeSection_returns hpage1 hlt).bind fun sec w2 h2 => ?_
      exact (resizeRemap_returns h2).bind fun _ _ _ => Prog.Post.pure trivial

end Remapping

/-! ## All calls -/

namespace Machine

variable {b : Build} {s s' : HostSys} {a : MachineEvent}

/-- Why the process is stopped in a call. -/
def ending (b : Build) (s : HostSys) : MachineEvent → Option Stop
  | .host (.life a) => s.life.ending b a
  | .host (.region i a) => (s.life.handles[i]?).bind fun memory =>
      (s.claims memory.activeClaims.obj).ending b a
  | .remap i proc call env => (s.life.handles[i]?).bind fun memory =>
      (call.run b env memory ⟨s.life.kernel, proc⟩).stopped?

/-- A request that the library has an assertion against. -/
def Misused (s : HostSys) : MachineEvent → Prop
  | .host (.life (.create _ _ size _ _)) => ¬ (size > 0 ∧ roundSize size > 0)
  | .host (.region _ (.claim _ _ _ _ count)) => count = 0
  | .remap i _ call _ => ∃ memory ∈ s.life.handles[i]?, Shortens memory s.life.kernel call
  | _ => False

/-- The machine between two events of a run. -/
structure MachineOk (b : Build) (s : HostSys) : Prop where
  service : HostSys.ServiceOk b .empty s
  copies : s.life.CopiesOk

theorem MachineOk.step (h : MachineOk b s) (ha : Settling b s a) (hs : Machine.step b s a = some s') :
    MachineOk b s' := by
  refine ⟨serviceOk_step h.service ha hs, ?_⟩
  have hlife : s.life.LifeOk := h.service.host.life
  cases a with
  | host a =>
    cases a with
    | life a =>
      obtain ⟨life, -, hcall, rfl⟩ := HostSys.step_life hs
      exact h.copies.step hlife ha.1.1 hcall
    | region i a =>
      obtain ⟨memory, -, hs⟩ := Option.bind_eq_some_iff.mp hs
      split at hs
      · obtain ⟨t, -, rfl⟩ := Option.map_eq_some_iff.mp hs
        exact h.copies.paged (.of_modifyObj _ _ fun _ => rfl) fun _ hm => hm
      · cases hs
  | remap i proc call env =>
    obtain ⟨memory, hget, rfl⟩ := Option.map_eq_some_iff.mp hs
    have hroom := ha memory hget
    have hpost : Prog.Post (call.run b env memory) ⟨s.life.kernel, proc⟩ _ (fun _ _ => False) _ :=
      call.run_resized_post
    have hpaged : ∀ {k : Kernel}, Touched memory call s.life.kernel k → s.life.kernel.Paged k :=
      fun ht => .of_resized (ht.resized hroom)
    cases hout : call.run b env memory ⟨s.life.kernel, proc⟩ with
    | ret r w =>
      cases r with
      | ok r => exact h.copies.paged (hpaged (hpost.of_ret hout).touched) fun _ hm => hm
      | error e => exact (hpost.of_error hout).elim
    | stop why w => exact h.copies.paged (hpaged (hpost.of_stop hout)) fun _ hm => hm

theorem MachineOk.ends {why : Stop} (h : MachineOk b s) (ha : Settling b s a)
    (hwhy : ending b s a = some why) : why = .assertion ∧ b.ndebug = false ∧ Misused s a := by
  have hlife : s.life.LifeOk := h.service.host.life
  cases a with
  | host a =>
    cases a with
    | life a =>
      obtain ⟨hassert, hndebug, c, os, size, n, access, rfl, hsize⟩ :=
        hlife.ending h.copies ha.1.1 hwhy
      exact ⟨hassert, hndebug, hsize⟩
    | region i a =>
      obtain ⟨memory, hget, hwhy⟩ := Option.bind_eq_some_iff.mp hwhy
      have hl := (hlife.linked memory (List.mem_of_getElem? hget)).names .activeClaims
      have hledger : (s.claims memory.activeClaims.obj).LedgerOk :=
        (h.service.host.claims _ _ hl).invariant (ClaimSys.ledgerOk_init (by decide))
          fun _ _ _ ht hg hs => (ht.step hg.1 hg.2.2 hs).1
      have hclean := (ha.1 memory hget).2.2
      obtain ⟨hassert, hndebug, hd, lock, access, offset, rfl⟩ := hledger.ending hclean hwhy
      exact ⟨hassert, hndebug, rfl⟩
  | remap i proc call env =>
    obtain ⟨memory, hget, hwhy⟩ := Option.bind_eq_some_iff.mp hwhy
    have hmapped := (hlife.linked memory (List.mem_of_getElem? hget)).mapped hlife.counted
    have hpost := call.run_returns (b := b) (e := env) (w := ⟨s.life.kernel, proc⟩)
      (E := fun _ _ => False) (ha memory hget) hmapped.closable.real
    obtain ⟨w, hassert, hndebug, hshort⟩ := hpost.of_stopped? hwhy
    exact ⟨hassert, hndebug, memory, hget, hshort⟩

/-- **Every call ends**: in every state of a run no call is stopped, but by an assertion about what is
asked for; and in a release build by nothing at all. -/
theorem ends_of_run {why : Stop} (hr : Reach (Machine.step b) (Settling b) HostSys.init s)
    (ha : Settling b s a) (hwhy : ending b s a = some why) :
    why = .assertion ∧ b.ndebug = false ∧ Misused s a := by
  have h : MachineOk b s :=
    hr.invariant ⟨HostSys.serviceOk_init, nofun⟩ fun _ _ _ h ha hs => h.step ha hs
  exact h.ends ha hwhy

/-- After `threeHandles` the first handle is copied, and grows its block to four pages. -/
def growsUntold : List MachineEvent :=
  HostSys.threeHandles.map .host ++
    [.host (.life (.fork 0)), .remap 0 .initial (.resizeGrow 16384) .willing]

/-- The third handle, of the same block, asks for two. -/
def staleGrowth : MachineEvent := .remap 2 .initial (.resizeGrow 8192) .willing

theorem ends_staleGrowth :
    ∃ s : HostSys, ending ⟨false⟩ s staleGrowth = some .assertion ∧ Misused s staleGrowth := by
  have htrace : ∃ s, Reach (Machine.step ⟨false⟩) (Settling ⟨false⟩) HostSys.init s ∧
      (settles s staleGrowth = true ∧ ending ⟨false⟩ s staleGrowth = some .assertion) :=
    exists_reach_of_trace (g := settles)
      (t := fun s => decide (settles s staleGrowth = true ∧ ending ⟨false⟩ s staleGrowth = some .assertion))
      growsUntold (fun _ _ => settling_of_settles) (fun _ h => of_decide_eq_true h) (by decide +kernel)
  obtain ⟨s, hr, hsettles, hstop⟩ := htrace
  exact ⟨s, hstop, (ends_of_run hr (settling_of_settles hsettles) hstop).2.2⟩

end Machine

end Ipm
