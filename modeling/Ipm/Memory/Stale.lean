import Ipm.Memory.FailedGrow
import Ipm.Memory.Pointer
import Ipm.Memory.Spec

/-!
# Growing through a stale handle

`ipm_memory_resize_grow` refuses a size below what its handle has mapped, and `shared_memory_block_resize`
asserts that it is not below what the block has. The first is a copy of the second from the handle's last
remapping. So a size between the two gets past the check and into the assertion, and without assertions
it shrinks the block.

A run in which no call asks for such a size keeps every handle's size below the block's, and in any state
of such a run the calls that do as they should are exactly the ones that do not ask for one either.
-/

set_option autoImplicit false

namespace Ipm

open Lib

variable {b : Build} {e : RemapEnv} {memory : Memory} {newSize : UInt64} {w w' : World}

/-! ## What the calls do to the sizes -/

/-- The kernel after a call: as before, or with the block grown, unless the length that asks for wraps
and there is no room for a header. -/
def Touched (memory : Memory) (call : RemapCall) (k k' : Kernel) : Prop :=
  k' = k ∨ ∃ newSize, call = .resizeGrow newSize ∧ ¬ roundSize newSize < memory.realMemory.size ∧
    ((memoryPageSize + roundSize newSize).toNat < memoryPageSize.toNat ∨
      k' = k.modifyObj memory.realMemory.obj (ShmObject.grown (roundSize newSize)))

/-- The size a handle has after a call that returned. -/
structure Resized (memory : Memory) (call : RemapCall) (k k' : Kernel) (after : Memory) : Prop where
  touched : Touched memory call k k'
  obj : after.realMemory.obj = memory.realMemory.obj
  size : after.realMemory.size = (k'.header memory.realMemory.obj).blockSize ∨
    after.realMemory.size = 0 ∨ after.realMemory.size = memory.realMemory.size

theorem update_resized_post (call : RemapCall) {mode : AccessMode} {E : IpmResult → World → Prop}
    (asked : Option AccessMode) :
    Prog.Post (do
        let (res, real) ← sharedMemoryBlockUpdateMapping e.ctx e.os memory.realMemory mode
        return (⟨asked, res, { memory with realMemory := real }⟩ : Remapped)) w
      (fun r w' => Resized memory call w.kernel w'.kernel r.memory) E
      (fun _ w' => Touched memory call w.kernel w'.kernel) := by
  refine (updateMapping_post.mapStop fun _ _ h => .inl h).bind
    fun r w1 h1 => Prog.Post.pure ?_
  obtain ⟨hk, hobj, hsize⟩ := h1
  refine ⟨.inl hk, hobj, ?_⟩
  rw [hk]
  exact hsize.imp_right .inl

/-- **What a call does to the sizes.** -/
theorem RemapCall.run_resized_post (call : RemapCall) {E : IpmResult → World → Prop} :
    Prog.Post (call.run b e memory) w
      (fun r w' => Resized memory call w.kernel w'.kernel r.memory) E
      (fun _ w' => Touched memory call w.kernel w'.kernel) := by
  cases call with
  | sync =>
    simp only [run, ipmMemorySync, bind_assoc, pure_bind]
    exact update_resized_post .sync _
  | changeAccess access =>
    simp only [run, ipmMemoryChangeAccess, bind_assoc, pure_bind]
    exact update_resized_post (.changeAccess access) _
  | resizeGrow newSize =>
    rw [run, resizeGrowNoted]
    refine ((growCheck_lets_post.and (GrowSys.growCheck_keeps w)).mono (fun _ _ h => h)
      (fun _ _ h => h.1) fun _ _ h => .inl h.2).bind fun r w1 h1 => ?_
    obtain ⟨⟨hk1, -, hlets⟩, -⟩ := h1
    cases r with
    | none => exact Prog.Post.pure ⟨.inl hk1, rfl, .inr (.inr rfl)⟩
    | some size =>
      obtain ⟨rfl, hle, -⟩ := hlets size rfl
      refine (resizeSection_post.mapStop ?_).bind fun sec w2 h2 => ?_
      · rintro _ w2 (hk2 | ⟨-, -, hcut, -⟩)
        · exact .inl (hk2.trans hk1)
        · exact .inr ⟨newSize, rfl, hle, .inl hcut⟩
      · have htouched : Touched memory (.resizeGrow newSize) w.kernel w2.kernel := by
          rw [hk1] at h2
          cases sec with
          | refused res => exact .inl h2.1
          | same => exact .inl h2.1
          | grown => exact .inr ⟨newSize, rfl, hle, .inr h2.2.2.2.2⟩
        refine (resizeRemap_post.mapStop ?_).bind fun r w3 h3 =>
          Prog.Post.pure ?_
        · intro _ w3 hk3
          rw [hk3]
          exact htouched
        · obtain ⟨hk3, hobj, hsize, -⟩ := h3
          rw [← hk3] at htouched hsize
          exact ⟨htouched, hobj, hsize⟩

/-! ## Runs -/

namespace RemapSys

variable {s s' : RemapSys} {a : RemapEvent} {obj : Nat}

/-- Handles of one block with a header, none of which has more mapped than the block has. -/
structure Stale (obj : Nat) (s : RemapSys) : Prop where
  same : ∀ h ∈ s.handles, h.block.obj = obj
  size_le : ∀ h ∈ s.handles, h.block.size ≤ (s.kernel.header obj).blockSize
  page : memoryPageSize.toNat ≤ (s.kernel.objs obj).length
  pos : 0 < (s.kernel.header obj).blockSize

/-- The size asked for is not between what the handle has and what the block has. -/
def OutOfTheGap (block : SharedMemoryBlock) (size newSize : UInt64) : Prop :=
  roundSize newSize < block.size ∨ size ≤ roundSize newSize

instance (block : SharedMemoryBlock) (size newSize : UInt64) :
    Decidable (OutOfTheGap block size newSize) := inferInstanceAs (Decidable (_ ∨ _))

/-- The size a call asks for. -/
def growth : RemapCall → Option UInt64
  | .resizeGrow newSize => some newSize
  | _ => none

/-- A size that can be asked for: it is out of the gap, and leaves room for a header. -/
def MayAsk (block : SharedMemoryBlock) (size newSize : UInt64) : Prop :=
  OutOfTheGap block size newSize ∧
    (roundSize newSize < block.size ∨ (roundSize newSize).toNat + memoryPageSize.toNat < 2 ^ 64)

instance (block : SharedMemoryBlock) (size newSize : UInt64) :
    Decidable (MayAsk block size newSize) := inferInstanceAs (Decidable (_ ∧ (_ ∨ _)))

/-- No call asks for anything else. -/
def Aware (s : RemapSys) (a : RemapEvent) : Prop :=
  ∀ h ∈ s.handles[a.i]?, ∀ newSize ∈ growth a.call, MayAsk h.block (s.blockSize h) newSize

instance (s : RemapSys) (a : RemapEvent) : Decidable (s.Aware a) :=
  have : DecidablePred fun h : RemapHandle => ∀ newSize ∈ growth a.call,
      MayAsk h.block (s.blockSize h) newSize := fun _ => Option.decidableForallMem (growth a.call)
  Option.decidableForallMem s.handles[a.i]?

/-- A call leaves the block no smaller than it was, and with its header. -/
theorem Touched.grows {memory : Memory} {k k' : Kernel} {call : RemapCall}
    (h : Touched memory call k k') (hpage : memoryPageSize.toNat ≤ (k.objs memory.realMemory.obj).length)
    (haware : ∀ newSize ∈ growth call,
      MayAsk memory.realMemory (k.header memory.realMemory.obj).blockSize newSize) :
    (k.header memory.realMemory.obj).blockSize ≤ (k'.header memory.realMemory.obj).blockSize ∧
      memoryPageSize.toNat ≤ (k'.objs memory.realMemory.obj).length := by
  rcases h with rfl | ⟨newSize, rfl, hle, hgrown⟩
  · exact ⟨UInt64.le_refl _, hpage⟩
  · obtain ⟨hgap, hwrap⟩ := haware newSize rfl
    have hroom : memoryPageSize.toNat ≤ (memoryPageSize + roundSize newSize).toNat := by
      rw [UInt64.toNat_add, Nat.add_comm, Nat.mod_eq_of_lt (hwrap.resolve_left hle)]
      exact Nat.le_add_left _ _
    obtain rfl := hgrown.resolve_left (Nat.not_lt.mpr hroom)
    refine ⟨?_, ?_⟩
    · rw [GrowSys.blockSize_grown]
      exact hgap.resolve_left hle
    · rw [Kernel.objs_modifyObj_self]
      show _ ≤ (ShmObject.resize _ _).length
      rw [ShmObject.length_resize]
      exact hroom

theorem Stale.step (h : Stale obj s) (haware : Aware s a) (hs : RemapSys.step b s a = some s') :
    Stale obj s' := by
  obtain ⟨g, hget, hout⟩ := Option.bind_eq_some_iff.mp hs
  have hmem := List.mem_of_getElem? hget
  obtain rfl : g.memory.realMemory.obj = obj := h.same g hmem
  have hpost : Prog.Post (a.call.run b a.env g.memory) ⟨s.kernel, s.procs g.pid⟩ _
      (fun _ _ => True) _ := a.call.run_resized_post
  have hgrows := fun {k'} (ht : Touched g.memory a.call s.kernel k') =>
    Touched.grows ht h.page (haware g hget)
  cases hrun : a.call.run b a.env g.memory ⟨s.kernel, s.procs g.pid⟩ with
  | ret res w =>
    rw [hrun] at hout
    cases res with
    | ok r =>
      obtain ⟨htouched, hobj, hsize⟩ := hpost.of_ret hrun
      obtain ⟨hle, hpage⟩ := hgrows htouched
      obtain rfl := Option.some.inj hout
      refine ⟨forall_mem_set h.same (fun _ _ hg => hg) hobj,
        forall_mem_set h.size_le (fun _ _ hg => UInt64.le_trans hg hle) ?_, hpage,
        UInt64.lt_of_lt_of_le h.pos hle⟩
      show r.memory.realMemory.size ≤ _
      rcases hsize with heq | hzero | hold
      · rw [heq]
        exact UInt64.le_refl _
      · rw [hzero]
        exact UInt64.zero_le
      · rw [hold]
        exact UInt64.le_trans (h.size_le g hmem) hle
    | error res => cases hout
  | stop why w =>
    rw [hrun] at hout
    obtain ⟨hle, hpage⟩ := hgrows (hpost.of_stop hrun)
    obtain rfl := Option.some.inj hout
    refine ⟨?_, ?_, hpage, UInt64.lt_of_lt_of_le h.pos hle⟩
    · intro g' hg'
      exact h.same g' (List.mem_of_mem_filter hg')
    · intro g' hg'
      exact UInt64.le_trans (h.size_le g' (List.mem_of_mem_filter hg')) hle

/-! ## One call -/

/-- A call with a size below the block's is refused and changes nothing; with any other it returns, and
when it gets the lock and the truncation the block has that size. -/
structure GrowsOrRefuses (b : Build) (e : RemapEnv) (memory : Memory) (newSize : UInt64) (w : World) :
    Prop where
  refuses : roundSize newSize < (w.kernel.header memory.realMemory.obj).blockSize →
    ∃ res w', ipmMemoryResizeGrow b e.ctx e.os e.lock memory newSize w =
        .ret (.ok (res, memory)) w' ∧
      res ≠ .success ∧ w'.kernel = w.kernel ∧ w'.proc.pages = w.proc.pages
  grows : (w.kernel.header memory.realMemory.obj).blockSize ≤ roundSize newSize →
    ∃ res memory' w', ipmMemoryResizeGrow b e.ctx e.os e.lock memory newSize w =
        .ret (.ok (res, memory')) w' ∧
      (e.lock = .success → roundSize newSize = (w.kernel.header memory.realMemory.obj).blockSize ∨
          e.os.ftruncate = none →
        (w'.kernel.header memory.realMemory.obj).blockSize = roundSize newSize)

/-- A size the handle knows to be too small. -/
theorem resizeGrow_refused (b : Build) (e : RemapEnv) (w : World)
    (hlt : roundSize newSize < memory.realMemory.size) :
    ∃ w', ipmMemoryResizeGrow b e.ctx e.os e.lock memory newSize w =
        .ret (.ok (.errBadValue, memory)) w' ∧ w'.kernel = w.kernel ∧ w'.proc.pages = w.proc.pages := by
  have hrun : ipmMemoryResizeGrow b e.ctx e.os e.lock memory newSize =
      (do ipmError e.ctx; return (.errBadValue, memory)) := if_pos hlt
  rw [hrun]
  exact ⟨_, rfl, rfl, rfl⟩

/-- With the lock and the truncation, the critical section leaves the size asked for. -/
theorem blockSize_of_section {os : Os} {lock : IpmResult} {block : SharedMemoryBlock}
    {k k' : Kernel} {sec : Section} (hroom : newSize.toNat + memoryPageSize.toNat < lengthLimit)
    (hdone : SectionDone os lock block newSize k k' sec)
    (hentered : sec.Entered os lock newSize (k.header block.obj).blockSize) (hlock : lock = .success)
    (htruncate : newSize = (k.header block.obj).blockSize ∨ os.ftruncate = none) :
    (k'.header block.obj).blockSize = newSize := by
  cases sec with
  | refused res =>
    obtain ⟨hne, hfails⟩ := hentered hlock
    have hfits : (memoryPageSize + newSize).toNat < lengthLimit := by
      rw [toNat_page_add hroom]
      exact hroom
    exact absurd ⟨htruncate.resolve_left hne, hfits⟩ hfails
  | same => rw [hdone.1, hdone.2]
  | grown =>
    rw [hdone.2.2.2.2]
    exact GrowSys.blockSize_grown

/-- A growth that was not refused at once and returned has gone through its critical section. -/
theorem resizeGrow_through {res : IpmResult} {memory' : Memory}
    (hle : ¬ roundSize newSize < memory.realMemory.size)
    (hroom : (roundSize newSize).toNat + memoryPageSize.toNat < lengthLimit)
    (h : ipmMemoryResizeGrow b e.ctx e.os e.lock memory newSize w = .ret (.ok (res, memory')) w')
    (hlock : e.lock = .success)
    (htruncate : roundSize newSize = (w.kernel.header memory.realMemory.obj).blockSize ∨
      e.os.ftruncate = none) :
    (w'.kernel.header memory.realMemory.obj).blockSize = roundSize newSize := by
  rw [ipmMemoryResizeGrow_eq] at h
  obtain ⟨checked, w₁, hcheck, hrest⟩ := Prog.exists_of_bind_ok h
  obtain ⟨hk₁, hnone, hlets⟩ := (growCheck_lets_post (E := fun _ _ => True)).of_ret hcheck
  cases checked with
  | none => exact absurd (hnone rfl) hle
  | some size =>
    obtain ⟨rfl, -, -⟩ := hlets size rfl
    obtain ⟨sec, w₂, hsection, hrest⟩ := Prog.exists_of_bind_ok hrest
    obtain ⟨r, w₃, hremap, hret⟩ := Prog.exists_of_bind_ok hrest
    have hdone := (resizeSection_post (E := fun _ _ => True)).of_ret hsection
    have hentered := (resizeSection_entered_post (E := fun _ _ => True)).of_ret hsection
    have hk₃ := ((resizeRemap_post (E := fun _ _ => True)).of_ret hremap).1
    rw [hk₁] at hdone hentered
    cases hret
    rw [hk₃]
    exact blockSize_of_section hroom hdone hentered hlock htruncate

/-- A growth to a size that passes the assertions returns. -/
theorem resizeGrow_ret (b : Build) (e : RemapEnv)
    (hpage : memoryPageSize.toNat ≤ (w.kernel.objs memory.realMemory.obj).length)
    (hle : ¬ roundSize newSize < memory.realMemory.size)
    (hassert : ResizeAsserts (w.kernel.header memory.realMemory.obj).blockSize (roundSize newSize))
    (hroom : (roundSize newSize).toNat + memoryPageSize.toNat < lengthLimit) :
    ∃ res memory' w', ipmMemoryResizeGrow b e.ctx e.os e.lock memory newSize w =
      .ret (.ok (res, memory')) w' := by
  obtain ⟨r, w', hret, -⟩ := sharedMemoryBlockResize_ret b e.ctx e.os e.lock hpage hassert hroom
  have hrun : ipmMemoryResizeGrow b e.ctx e.os e.lock memory newSize = (do
      let (res, real) ← sharedMemoryBlockResize b e.ctx e.os e.lock memory.realMemory
        (roundSize newSize)
      return (res, { memory with realMemory := real })) := if_neg hle
  rw [hrun, Prog.bind_ok hret]
  exact ⟨_, _, _, rfl⟩

/-- A size of at most `2 ^ 62` has room for the header page when it is rounded up. -/
theorem room_of_le (hbound : newSize.toNat ≤ 2 ^ 62) :
    (roundSize newSize).toNat + memoryPageSize.toNat < lengthLimit := by
  rw [toNat_roundSize, pageSize_eq, lengthLimit]
  omega

/-- **Exactly the sizes out of the gap are handled.** -/
theorem growsOrRefuses_iff (hbound : newSize.toNat ≤ 2 ^ 62)
    (hpage : memoryPageSize.toNat ≤ (w.kernel.objs memory.realMemory.obj).length)
    (hpos : 0 < (w.kernel.header memory.realMemory.obj).blockSize)
    (hsize : memory.realMemory.size ≤ (w.kernel.header memory.realMemory.obj).blockSize) :
    (∀ e, GrowsOrRefuses b e memory newSize w) ↔
      OutOfTheGap memory.realMemory (w.kernel.header memory.realMemory.obj).blockSize newSize := by
  have hroom := room_of_le hbound
  constructor
  · intro h
    by_contra hgap
    rw [OutOfTheGap, not_or, UInt64.not_le] at hgap
    obtain ⟨hle, hlt⟩ := hgap
    -- an environment that does what it is asked makes the block smaller, or the assertion fails
    obtain ⟨res, w', hret, -, hk, -⟩ := (h .willing).refuses hlt
    have hthrough := resizeGrow_through hle hroom hret rfl (.inr rfl)
    rw [hk] at hthrough
    rw [hthrough] at hlt
    exact absurd hlt (UInt64.lt_irrefl _)
  · intro hgap e
    constructor
    · intro hlt
      have hknown := hgap.resolve_right (UInt64.not_le.mpr hlt)
      obtain ⟨w', hret, hk, hp⟩ := resizeGrow_refused b e w hknown
      refine ⟨_, w', hret, ?_, hk, hp⟩
      intro hres
      cases hres
    · intro hge
      have hle : ¬ roundSize newSize < memory.realMemory.size :=
        UInt64.not_lt.mpr (UInt64.le_trans hsize hge)
      have hassert : ResizeAsserts (w.kernel.header memory.realMemory.obj).blockSize
          (roundSize newSize) :=
        ⟨hge, roundSize_mask newSize, UInt64.lt_of_lt_of_le hpos hge⟩
      obtain ⟨res, memory', w', hret⟩ := resizeGrow_ret b e hpage hle hassert hroom
      refine ⟨res, memory', w', hret, ?_⟩
      intro hlock htruncate
      exact resizeGrow_through hle hroom hret hlock htruncate

/-- **Growing through a stale handle.** In every state of a run whose calls keep out of the gap, a call
of any handle does as it should, whatever the environment answers, exactly when it keeps out of the gap
too. -/
theorem growsOrRefuses_of_aware {s₀ : RemapSys} (h₀ : Stale obj s₀)
    (hr : Reach (RemapSys.step b) Aware s₀ s) {i : Nat} {h : RemapHandle}
    (hget : s.handles[i]? = some h) (hbound : newSize.toNat ≤ 2 ^ 62) :
    (∀ e, GrowsOrRefuses b e h.memory newSize ⟨s.kernel, s.procs h.pid⟩) ↔
      OutOfTheGap h.block (s.blockSize h) newSize := by
  have hstale : Stale obj s := hr.invariant h₀ fun _ _ _ hs haware hstep => hs.step haware hstep
  have hmem := List.mem_of_getElem? hget
  obtain rfl : h.memory.realMemory.obj = obj := hstale.same h hmem
  exact growsOrRefuses_iff hbound hstale.page hstale.pos (hstale.size_le h hmem)

/-- `Stale`, evaluated. -/
def staleNow (obj : Nat) (s : RemapSys) : Bool :=
  s.handles.all (fun h => decide (h.block.obj = obj ∧ h.block.size ≤ (s.kernel.header obj).blockSize)) &&
    decide (memoryPageSize.toNat ≤ (s.kernel.objs obj).length ∧ 0 < (s.kernel.header obj).blockSize)

theorem stale_of_staleNow (h : s.staleNow obj = true) : s.Stale obj := by
  rw [staleNow, Bool.and_eq_true, List.all_eq_true] at h
  obtain ⟨hhandles, hobject⟩ := h
  obtain ⟨hpage, hpos⟩ := of_decide_eq_true hobject
  refine ⟨?_, ?_, hpage, hpos⟩
  · intro g hg
    exact (of_decide_eq_true (hhandles g hg)).1
  · intro g hg
    exact (of_decide_eq_true (hhandles g hg)).2

/-- The writer of `readAndWritten` grows the block, and the reader's handle does not know. -/
def writerGrows : List RemapEvent := [⟨0, .resizeGrow 16384, .willing⟩]

/-- The state after that growth and the reader's handle in it, if they pass the test `t`. -/
theorem exists_writerGrows {t : RemapSys → RemapHandle → Bool}
    (hrun : (readAndWritten.any fun s₀ => s₀.staleNow 0 &&
      (runGuarded (RemapSys.step ⟨false⟩) (fun s a => decide (s.Aware a)) s₀ writerGrows).any fun s =>
        (s.handles[1]?).any fun h => t s h) = true) :
    ∃ s₀ s h, s₀.Stale 0 ∧ Reach (RemapSys.step ⟨false⟩) Aware s₀ s ∧ s.handles[1]? = some h ∧
      t s h = true := by
  obtain ⟨s₀, -, htest⟩ := (Option.any_eq_true _ _).mp hrun
  obtain ⟨hstale, htest⟩ := (Bool.and_eq_true _ _).mp htest
  obtain ⟨s, hs, htest⟩ := (Option.any_eq_true _ _).mp htest
  obtain ⟨h, hget, htest⟩ := (Option.any_eq_true _ _).mp htest
  exact ⟨s₀, s, h, stale_of_staleNow hstale,
    .of_runGuarded (fun _ _ hg => of_decide_eq_true hg) hs, hget, htest⟩

/-- The reader asks for what the block has. -/
theorem growsOrRefuses_writerGrows :
    ∃ s₀ s h, s₀.Stale 0 ∧ Reach (RemapSys.step ⟨false⟩) Aware s₀ s ∧ s.handles[1]? = some h ∧
      h.block.size = 4096 ∧ s.blockSize h = 16384 ∧
      ∀ e, GrowsOrRefuses ⟨false⟩ e h.memory 16384 ⟨s.kernel, s.procs h.pid⟩ := by
  have hrun := exists_writerGrows
    (t := fun s h => decide (h.block.size = 4096 ∧ s.blockSize h = 16384)) (by decide +kernel)
  obtain ⟨s₀, s, h, hstale, hreach, hget, htest⟩ := hrun
  obtain ⟨hsize, hblock⟩ := of_decide_eq_true htest
  refine ⟨s₀, s, h, hstale, hreach, hget, hsize, hblock, ?_⟩
  refine (growsOrRefuses_of_aware hstale hreach hget (by decide)).mpr (.inr ?_)
  rw [hblock]
  decide

/-- A call that fails an assertion. -/
def assertsOut {α : Type} : Outcome World (Except IpmResult α) → Bool
  | .stop .assertion _ => true
  | _ => false

/-- It asks for less, though for more than it has. -/
theorem stale_grow_asserts :
    ∃ s₀ s h, s₀.Stale 0 ∧ Reach (RemapSys.step ⟨false⟩) Aware s₀ s ∧ s.handles[1]? = some h ∧
      s.blockSize h = 16384 ∧
      assertsOut (ipmMemoryResizeGrow ⟨false⟩ ⟨fun e => e⟩ .willing .success h.memory 8192
        ⟨s.kernel, s.procs h.pid⟩) = true ∧
      ¬ ∀ e, GrowsOrRefuses ⟨false⟩ e h.memory 8192 ⟨s.kernel, s.procs h.pid⟩ := by
  have hrun := exists_writerGrows
    (t := fun s h => decide (s.blockSize h = 16384) &&
      assertsOut (ipmMemoryResizeGrow ⟨false⟩ ⟨fun e => e⟩ .willing .success h.memory 8192
        ⟨s.kernel, s.procs h.pid⟩)) (by decide +kernel)
  obtain ⟨s₀, s, h, hstale, hreach, hget, htest⟩ := hrun
  obtain ⟨hblock, hasserts⟩ := (Bool.and_eq_true _ _).mp htest
  have hsize := of_decide_eq_true hblock
  refine ⟨s₀, s, h, hstale, hreach, hget, hsize, hasserts, ?_⟩
  intro hall
  have hlt : roundSize 8192 < s.blockSize h := by
    rw [hsize]
    decide
  obtain ⟨res, w', hret, -⟩ := (hall .willing).refuses hlt
  have hstop : assertsOut (.ret (.ok (res, h.memory)) w') = true :=
    (congrArg assertsOut hret).symm.trans hasserts
  cases hstop

end RemapSys

end Ipm
