import Ipm.Block.Resize
import Ipm.Lib.Reach
import Ipm.Lib.Threads
import Ipm.Memory.Ops

/-!
# Growing a block from several handles

Any number of handles of one block, and any interleaving of their `ipm_memory_resize_grow` calls. A
call compares the size asked for with the block's before it takes the segment mutex and truncates
after, so another call may have grown the block past it in between, and then the truncation shrinks
it under the mappings of everybody else.

`InOrder` is the condition that no truncation does that. Under it a block never shrinks and no handle
has more mapped than the block has.
-/

set_option autoImplicit false

namespace Ipm

open Lib

/-- What `ipm_memory_resize_grow` does before it takes the lock: the rounded size, unless the handle
has more than that mapped. -/
def growCheck (b : Build) (ctx : Context) (block : SharedMemoryBlock) (newSize : UInt64) :
    Call (Option UInt64) := do
  if roundSize newSize < block.size then
    ipmError ctx
    return none
  else
    resizeCheck b block (roundSize newSize)
    return some (roundSize newSize)

/-- `ipm_memory_resize_grow` is its three steps one after another. -/
theorem ipmMemoryResizeGrow_eq (b : Build) (ctx : Context) (os : Os) (lock : IpmResult)
    (memory : Memory) (newSize : UInt64) :
    ipmMemoryResizeGrow b ctx os lock memory newSize = (do
      match ← growCheck b ctx memory.realMemory newSize with
      | none => return (.errBadValue, memory)
      | some newSize =>
        let sec ← resizeSection ctx os lock memory.realMemory newSize
        let (res, real) ← resizeRemap ctx os memory.realMemory newSize sec
        return (res, { memory with realMemory := real })) := by
  unfold ipmMemoryResizeGrow growCheck sharedMemoryBlockResize
  dsimp only
  split <;> simp only [bind_assoc, pure_bind]

inductive GrowPhase where
  | idle
  /-- The checks have passed. -/
  | checked (newSize : UInt64)
  /-- The critical section is over. -/
  | unlocked (newSize : UInt64) (sec : Section)
  | stopped
  deriving DecidableEq, Repr

/-- A handle, and where its call stands. -/
structure Grower where
  block : SharedMemoryBlock
  phase : GrowPhase
  deriving DecidableEq, Repr

structure GrowSys where
  kernel : Kernel
  growers : List Grower

/-- What the environment answers to one step. -/
structure GrowEnv where
  ctx : Context
  proc : Proc
  os : Os
  lock : IpmResult

/-- An environment in which every call succeeds. -/
def GrowEnv.willing : GrowEnv := ⟨⟨fun e => e⟩, .initial, .willing, .success⟩

inductive GrowEvent where
  /-- Handle `i` calls `ipm_memory_resize_grow` and makes the checks. -/
  | check (i : Nat) (newSize : UInt64) (e : GrowEnv)
  /-- Handle `i` goes through its critical section. -/
  | enter (i : Nat) (e : GrowEnv)
  /-- Handle `i` remaps, and returns. -/
  | remap (i : Nat) (e : GrowEnv)

/-- The size a call is about to truncate to. -/
def GrowPhase.target : GrowPhase → Option UInt64
  | checked newSize => some newSize
  | _ => none

namespace GrowSys

/-- Grower `i` after a step that came to `o`. -/
def moveTo {α : Type} (s : GrowSys) (i : Nat) (g : Grower) (next : α → Grower) :
    Outcome World (Except IpmResult α) → Option GrowSys
  | .ret (.ok a) w => some ⟨w.kernel, s.growers.set i (next a)⟩
  | .ret (.error _) _ => none
  | .stop _ w => some ⟨w.kernel, s.growers.set i { g with phase := .stopped }⟩

def step (b : Build) (s : GrowSys) : GrowEvent → Option GrowSys
  | .check i newSize e =>
    (s.growers[i]?).bind fun g =>
      match g.phase with
      | .idle =>
        s.moveTo i g (fun r => { g with phase := r.elim .idle .checked })
          (growCheck b e.ctx g.block newSize ⟨s.kernel, e.proc⟩)
      | _ => none
  | .enter i e =>
    (s.growers[i]?).bind fun g =>
      match g.phase with
      | .checked newSize =>
        s.moveTo i g (fun sec => { g with phase := .unlocked newSize sec })
          (resizeSection e.ctx e.os e.lock g.block newSize ⟨s.kernel, e.proc⟩)
      | _ => none
  | .remap i e =>
    (s.growers[i]?).bind fun g =>
      match g.phase with
      | .unlocked newSize sec =>
        s.moveTo i g (fun r => { block := r.2, phase := .idle })
          (resizeRemap e.ctx e.os g.block newSize sec ⟨s.kernel, e.proc⟩)
      | _ => none

/-- `block_size` of the block. -/
def blockSize (s : GrowSys) (obj : Nat) : UInt64 := (s.kernel.header obj).blockSize

/-- A critical section that truncates is still asked for no less than the block has, and leaves room
for the header page. -/
def InOrder (obj : Nat) (s : GrowSys) : GrowEvent → Prop
  | .enter i e => ∀ g ∈ s.growers[i]?, ∀ newSize ∈ g.phase.target, e.lock = .success →
      e.os.ftruncate = none →
        s.blockSize obj ≤ newSize ∧ newSize.toNat + memoryPageSize.toNat < 2 ^ 64
  | _ => True

-- by hand, so that the inner quantifier is decided on the one target and not on every size
instance (obj : Nat) (s : GrowSys) : (a : GrowEvent) → Decidable (s.InOrder obj a)
  | .enter i e =>
    have : DecidablePred fun g : Grower => ∀ newSize ∈ g.phase.target, e.lock = .success →
        e.os.ftruncate = none →
          s.blockSize obj ≤ newSize ∧ newSize.toNat + memoryPageSize.toNat < 2 ^ 64 :=
      fun g => Option.decidableForallMem g.phase.target
    Option.decidableForallMem s.growers[i]?
  | .check _ _ _ => inferInstanceAs (Decidable True)
  | .remap _ _ => inferInstanceAs (Decidable True)

/-- Handles of one block, none of which has more mapped than the block has. -/
structure MappedWithin (obj : Nat) (s : GrowSys) : Prop where
  same : ∀ g ∈ s.growers, g.block.obj = obj
  size_le : ∀ g ∈ s.growers, g.block.size ≤ s.blockSize obj

variable {b : Build} {s s' : GrowSys} {obj i : Nat} {g g' : Grower} {k' : Kernel}

/-! ## Each step -/

/-- A step of one handle that does not make the block smaller. -/
theorem MappedWithin.set (h : MappedWithin obj s) (hle : s.blockSize obj ≤ (k'.header obj).blockSize)
    (hobj : g'.block.obj = obj) (hsize : g'.block.size ≤ (k'.header obj).blockSize) :
    MappedWithin obj ⟨k', s.growers.set i g'⟩ :=
  ⟨forall_mem_set h.same (fun _ _ hg => hg) hobj,
    forall_mem_set h.size_le (fun _ _ hg => UInt64.le_trans hg hle) hsize⟩

/-- What `moveTo` needs of the step it takes. -/
theorem MappedWithin.moveTo {α : Type} {p : Call α} {proc : Proc} {next : α → Grower}
    {E : IpmResult → World → Prop} (h : MappedWithin obj s) (hget : s.growers[i]? = some g)
    (hpost : Prog.Post p ⟨s.kernel, proc⟩
      (fun a w => s.blockSize obj ≤ (w.kernel.header obj).blockSize ∧ (next a).block.obj = obj ∧
        (next a).block.size ≤ (w.kernel.header obj).blockSize)
      E (fun _ w => s.blockSize obj ≤ (w.kernel.header obj).blockSize))
    (hs : s.moveTo i g next (p ⟨s.kernel, proc⟩) = some s') :
    MappedWithin obj s' ∧ s.blockSize obj ≤ s'.blockSize obj := by
  have hmem := List.mem_of_getElem? hget
  cases hp : p ⟨s.kernel, proc⟩ with
  | ret r w =>
    rw [hp] at hs
    cases r with
    | ok a =>
      obtain ⟨hle, hobj, hsize⟩ := hpost.of_ret hp
      cases hs
      exact ⟨h.set hle hobj hsize, hle⟩
    | error e => cases hs
  | stop why w =>
    rw [hp] at hs
    have hle := hpost.of_stop hp
    cases hs
    exact ⟨h.set hle (h.same g hmem) (UInt64.le_trans (h.size_le g hmem) hle), hle⟩

theorem growCheck_keeps {ctx : Context} {block : SharedMemoryBlock} {newSize : UInt64} :
    Prog.Keeps World.kernel (growCheck b ctx block newSize) := by
  unfold growCheck
  split
  · exact ipmError_keeps.bind fun _ => .pure _
  · refine Prog.Keeps.bind ?_ fun _ => .pure _
    refine getHeader_keeps.bind fun _ => (Prog.Keeps.assert _ _).bind fun _ => ?_
    exact (Prog.Keeps.assert _ _).bind fun _ => .assert _ _

theorem blockSize_grown {k : Kernel} {newSize : UInt64} :
    ((k.modifyObj obj (ShmObject.grown newSize)).header obj).blockSize = newSize := by
  rw [Kernel.header, Kernel.objs_modifyObj_self]
  rfl

/-- A step that leaves the header alone. -/
theorem blockSize_le_of_eq {w : World} (hw : w.kernel = s.kernel) :
    s.blockSize obj ≤ (w.kernel.header obj).blockSize := by
  rw [hw]
  exact UInt64.le_refl _

theorem MappedWithin.step {a : GrowEvent} (h : MappedWithin obj s) (ha : s.InOrder obj a)
    (hs : GrowSys.step b s a = some s') :
    MappedWithin obj s' ∧ s.blockSize obj ≤ s'.blockSize obj := by
  cases a with
  | check i newSize e =>
    obtain ⟨g, hget, hout⟩ := Option.bind_eq_some_iff.mp hs
    have hmem := List.mem_of_getElem? hget
    split at hout
    · refine h.moveTo hget ((growCheck_keeps _).mono (fun r w hw => ?_) (fun _ _ hw => hw)
        fun _ w hw => blockSize_le_of_eq hw) hout
      have hle : s.blockSize obj ≤ (w.kernel.header obj).blockSize := blockSize_le_of_eq hw
      exact ⟨hle, h.same g hmem, UInt64.le_trans (h.size_le g hmem) hle⟩
    · cases hout
  | enter i e =>
    obtain ⟨g, hget, hout⟩ := Option.bind_eq_some_iff.mp hs
    have hmem := List.mem_of_getElem? hget
    obtain rfl : g.block.obj = obj := h.same g hmem
    split at hout
    · rename_i newSize hphase
      have horder := ha g hget newSize (by rw [hphase]; rfl)
      refine h.moveTo (E := fun _ _ => False) hget (resizeSection_post.mono (fun sec w hdone => ?_)
        (fun _ _ hw => hw) fun _ w hstop => ?_) hout
      · have hle : s.blockSize g.block.obj ≤ (w.kernel.header g.block.obj).blockSize := by
          cases sec with
          | refused res => exact blockSize_le_of_eq hdone.1
          | same => exact blockSize_le_of_eq hdone.1
          | grown =>
            obtain ⟨hlock, htrunc, -, -, hk⟩ := hdone
            rw [hk, blockSize_grown]
            exact (horder hlock htrunc).1
        exact ⟨hle, rfl, UInt64.le_trans (h.size_le g hmem) hle⟩
      · rcases hstop with hk | ⟨hlock, htrunc, hshort, -⟩
        · exact blockSize_le_of_eq hk
        · -- with room for the header page it is not cut off
          have hroom := (horder hlock htrunc).2
          rw [UInt64.toNat_add, Nat.add_comm, Nat.mod_eq_of_lt hroom] at hshort
          exact absurd (Nat.le_add_left _ _) (Nat.not_le.mpr hshort)
    · cases hout
  | remap i e =>
    obtain ⟨g, hget, hout⟩ := Option.bind_eq_some_iff.mp hs
    have hmem := List.mem_of_getElem? hget
    obtain rfl : g.block.obj = obj := h.same g hmem
    split at hout
    · refine h.moveTo (E := fun _ _ => False) hget (resizeRemap_post.mono (fun r w hr => ?_)
        (fun _ _ hw => hw) fun _ w hw => blockSize_le_of_eq hw) hout
      obtain ⟨hw, hobj, hsize, -⟩ := hr
      have hle : s.blockSize g.block.obj ≤ (w.kernel.header g.block.obj).blockSize :=
        blockSize_le_of_eq hw
      refine ⟨hle, hobj, ?_⟩
      rcases hsize with heq | hzero | hold
      · rw [heq]
        exact hle
      · rw [hzero]
        exact UInt64.zero_le
      · rw [hold]
        exact UInt64.le_trans (h.size_le g hmem) hle
    · cases hout

/-! ## Runs -/

/-- **A block never shrinks under concurrent growth**: no state that is reached has a handle with
more mapped than the block has, and none that is reached from it has a smaller block. -/
theorem neverShrinks_of_inOrder {s₀ : GrowSys} (h₀ : MappedWithin obj s₀)
    (hr : Reach (GrowSys.step b) (InOrder obj) s₀ s) :
    MappedWithin obj s ∧ ∀ s', Reach (GrowSys.step b) (InOrder obj) s s' →
      s.blockSize obj ≤ s'.blockSize obj := by
  have hok : MappedWithin obj s := hr.invariant h₀ fun _ _ _ h ha hs => (h.step ha hs).1
  refine ⟨hok, fun s' hr' => ?_⟩
  have hrun : MappedWithin obj s' ∧ s.blockSize obj ≤ s'.blockSize obj := by
    refine hr'.invariant (I := fun s' => MappedWithin obj s' ∧ s.blockSize obj ≤ s'.blockSize obj)
      ⟨hok, UInt64.le_refl _⟩ fun t a t' h ha hs => ?_
    obtain ⟨hmapped, hle⟩ := h.1.step ha hs
    exact ⟨hmapped, UInt64.le_trans h.2 hle⟩
  exact hrun.2

/-- Handle `fd` of a block of one page. -/
def pageBlock (fd : Nat) : SharedMemoryBlock :=
  { accessId := 1, size := 4096, header := 0x8000, memory := 0x10000, hasOwnership := false,
    accessMode := .readWrite, memFd := ⟨fd, 0⟩ }

/-- Two handles of a block of one page. -/
def pair : GrowSys :=
  { kernel := Kernel.empty.build (makeBlockNameBasedOnId BlockName.a.chars 1)
      (createdObject .a 1 4096)
    growers := [⟨pageBlock 3, .idle⟩, ⟨pageBlock 4, .idle⟩] }

theorem mappedWithin_pair : MappedWithin 0 pair := by
  refine ⟨fun g hg => ?_, fun g hg => ?_⟩ <;>
    rcases List.mem_pair.mp hg with rfl | rfl
  · rfl
  · rfl
  · exact UInt64.le_refl _
  · exact UInt64.le_refl _

/-- One handle grows the block, and then the other. -/
def inTurn : List GrowEvent :=
  [.check 0 12288 .willing, .enter 0 .willing, .remap 0 .willing,
   .check 1 16384 .willing, .enter 1 .willing, .remap 1 .willing]

theorem neverShrinks_inTurn :
    MappedWithin 0 pair ∧
    ∃ s, Reach (GrowSys.step ⟨false⟩) (InOrder 0) pair s ∧ s.blockSize 0 = 16384 ∧
      MappedWithin 0 s ∧ ∀ s', Reach (GrowSys.step ⟨false⟩) (InOrder 0) s s' →
        s.blockSize 0 ≤ s'.blockSize 0 := by
  have htrace : ∃ s, Reach (GrowSys.step ⟨false⟩) (InOrder 0) pair s ∧ s.blockSize 0 = 16384 :=
    exists_reach_of_trace (g := fun s a => decide (s.InOrder 0 a))
      (t := fun s => decide (s.blockSize 0 = 16384)) inTurn (fun _ _ h => of_decide_eq_true h)
      (fun _ h => of_decide_eq_true h) (by decide +kernel)
  obtain ⟨s, hr, hsize⟩ := htrace
  exact ⟨mappedWithin_pair, s, hr, hsize, neverShrinks_of_inOrder mappedWithin_pair hr⟩

/-! ## Where it goes wrong -/

/-- Both handles pass their checks; the larger size is truncated to and mapped first. -/
def crossed : List GrowEvent :=
  [.check 0 12288 .willing, .check 1 8192 .willing, .enter 0 .willing, .remap 0 .willing]

/-- The second handle's critical section shrinks the block under the first. -/
def shrinksNext (s : GrowSys) : Bool :=
  (GrowSys.step ⟨false⟩ s (.enter 1 .willing)).any fun s' =>
    decide (s'.blockSize 0 < s.blockSize 0) &&
      s'.growers.any fun g => decide (s'.blockSize 0 < g.block.size)

theorem shrinks_of_shrinksNext (h : s.shrinksNext = true) :
    ∃ s', Reach (GrowSys.step ⟨false⟩) (fun _ _ => True) s s' ∧
      s'.blockSize 0 < s.blockSize 0 ∧ ¬ MappedWithin 0 s' := by
  obtain ⟨s', hs', htest⟩ := (Option.any_eq_true _ _).mp h
  rw [Bool.and_eq_true, decide_eq_true_eq, List.any_eq_true] at htest
  obtain ⟨hlt, g, hg, hgt⟩ := htest
  refine ⟨s', .next .init trivial hs', hlt, fun hmapped => ?_⟩
  exact UInt64.not_le.mpr (of_decide_eq_true hgt) (hmapped.size_le g hg)

theorem crossed_shrinks :
    MappedWithin 0 pair ∧
    ∃ s, Reach (GrowSys.step ⟨false⟩) (fun _ _ => True) pair s ∧
      ∃ s', Reach (GrowSys.step ⟨false⟩) (fun _ _ => True) s s' ∧
        s'.blockSize 0 < s.blockSize 0 ∧ ¬ MappedWithin 0 s' :=
  ⟨mappedWithin_pair, exists_reach_of_trace (g := fun _ _ => true) (t := shrinksNext) crossed
    (fun _ _ _ => trivial) (fun _ h => shrinks_of_shrinksNext h) (by decide +kernel)⟩

end GrowSys

end Ipm
