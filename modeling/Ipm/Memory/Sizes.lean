import Mathlib.Order.Bounds.Basic
import Ipm.Block.Frame
import Ipm.Memory.Grow
import Ipm.Memory.Lifetime

/-!
# Sizes, and the lengths of the files

Whole `ipm_memory_create` and `ipm_memory_resize_grow` calls, one after another, on any handle and
with any 64-bit size. A size goes through two wrapping additions: `round_size`, and the header page
that is added for `ftruncate`. Creation is saved by its `mmap`, which refuses what has wrapped.
Growing truncates before it maps, and the one size that rounds without wrapping and wraps with the
header page, `2 ^ 64 - 4096`, truncates the file to nothing.

`Fits` leaves that size out. Then the file of every block is as long as its header says.
-/

set_option autoImplicit false

namespace Ipm

open Lib

/-- The header and the file agree: whole pages, and one more for the header. -/
structure ShmObject.Sized (o : ShmObject) : Prop where
  pos : 0 < o.header.blockSize.toNat
  aligned : memoryPageSize.toNat ∣ o.header.blockSize.toNat
  length : o.length = o.header.blockSize.toNat + memoryPageSize.toNat

/-- `m` is what a request for `size` bytes comes to. -/
def LeastPages (size : UInt64) (m : Nat) : Prop :=
  IsLeast { m : Nat | memoryPageSize.toNat ∣ m ∧ size.toNat ≤ m } m

variable {b : Build} {ctx : Context} {os : Os} {w : World} {lock : IpmResult} {k : Kernel}
variable {size newSize id : UInt64} {n : BlockName} {access : AccessMode} {memory : Memory}

/-! ## Rounding -/

/-- A size that does not round to zero is rounded up to the next page. -/
theorem roundSize_leastPages (h : roundSize size ≠ 0) :
    LeastPages size (roundSize size).toNat := by
  have hpage : memoryPageSize.toNat = 4096 := rfl
  have hlt := size.toNat_lt
  have hround := toNat_roundSize size
  have hpos : (roundSize size).toNat ≠ 0 := fun hzero => h (UInt64.toNat_inj.mp hzero)
  rw [hpage] at hround
  refine ⟨⟨?_, ?_⟩, ?_⟩
  · rw [hpage]
    omega
  · omega
  · rintro m ⟨⟨c, rfl⟩, hle⟩
    rw [hpage] at hle ⊢
    omega

/-! ## Growing -/

theorem dvd_of_mask (h : newSize &&& memoryPageSizeMask = 0) :
    memoryPageSize.toNat ∣ newSize.toNat :=
  Nat.dvd_of_mod_eq_zero ((and_mask_eq_zero_iff newSize).mp h)

/-- A length that has room for the header page has not wrapped. -/
theorem ShmObject.sized_grown (o : ShmObject) (hpos : newSize > 0)
    (hmask : newSize &&& memoryPageSizeMask = 0)
    (hroom : memoryPageSize.toNat ≤ (memoryPageSize + newSize).toNat) :
    (o.grown newSize).Sized where
  pos := UInt64.lt_iff_toNat_lt.mp hpos
  aligned := dvd_of_mask hmask
  length := by
    have hlength : (o.grown newSize).length = (memoryPageSize + newSize).toNat :=
      ShmObject.length_resize o _
    have hpage : memoryPageSize.toNat = 4096 := rfl
    have hlt := newSize.toNat_lt
    rw [UInt64.toNat_add, hpage] at hroom
    rw [hlength, UInt64.toNat_add, hpage]
    show _ = newSize.toNat + 4096
    omega

/-- The object is untouched, or has been given the rounded size and a file that holds it. -/
def Grown (obj : Nat) (newSize : UInt64) (k k' : Kernel) : Prop :=
  k' = k ∨ roundSize newSize > 0 ∧
    memoryPageSize.toNat ≤ (memoryPageSize + roundSize newSize).toNat ∧
    k' = k.modifyObj obj (ShmObject.grown (roundSize newSize))

/-- A returned `ipm_memory_resize_grow`. -/
structure GrowReturned (memory : Memory) (newSize : UInt64) (k : Kernel) (res : IpmResult)
    (memory' : Memory) (k' : Kernel) : Prop where
  obj : ∀ kind, (memory'.block kind).obj = (memory.block kind).obj
  kernel : Grown memory.realMemory.obj newSize k k'
  success : res = .success → roundSize newSize ≠ 0 ∧
    (k'.header memory.realMemory.obj).blockSize = roundSize newSize

/-- A stopped one: what it had done was done whole, unless it truncated to less than a page. -/
def GrowStopped (os : Os) (lock : IpmResult) (obj : Nat) (newSize : UInt64) (k k' : Kernel) : Prop :=
  Grown obj newSize k k' ∨ lock = .success ∧ os.ftruncate = none ∧
    (memoryPageSize + roundSize newSize).toNat < memoryPageSize.toNat

/-- The checks let through the rounded size, and no zero. -/
theorem growCheck_post {block : SharedMemoryBlock} {E : IpmResult → World → Prop} :
    Prog.Post (growCheck ⟨false⟩ ctx block newSize) w
      (fun r w' => w'.kernel = w.kernel ∧ ∀ size ∈ r, size = roundSize newSize ∧ size > 0) E
      (fun _ w' => w'.kernel = w.kernel) := by
  unfold growCheck
  split
  · exact ipmError_post.bind fun _ w1 h1 => Prog.Post.pure ⟨h1, nofun⟩
  · refine resizeCheck_post.bind fun _ w1 h1 => Prog.Post.pure ⟨h1.1, ?_⟩
    rintro _ ⟨⟩
    exact ⟨rfl, (h1.2 rfl).2⟩

/-- What the critical section has done with a size that passed the checks. -/
theorem SectionDone.grown {block : SharedMemoryBlock} {k' : Kernel} {sec : Section}
    (h : SectionDone os lock block (roundSize newSize) k k' sec) (hpos : roundSize newSize > 0) :
    Grown block.obj newSize k k' ∧
      ((k'.header block.obj).blockSize = roundSize newSize ∨
        ∃ res, sec = .refused res ∧ res ≠ .success) := by
  cases sec with
  | refused res => exact ⟨.inl h.1, .inr ⟨res, rfl, h.2⟩⟩
  | same =>
    obtain ⟨hk, hsize⟩ := h
    rw [hk]
    exact ⟨.inl rfl, .inl hsize.symm⟩
  | grown =>
    obtain ⟨-, -, -, hroom, hk⟩ := h
    rw [hk]
    exact ⟨.inr ⟨hpos, hroom, rfl⟩, .inl GrowSys.blockSize_grown⟩

/-- The real memory of a handle can be replaced by another view of the same object. -/
theorem obj_block_update (memory : Memory) {real : SharedMemoryBlock}
    (hobj : real.obj = memory.realMemory.obj) (kind : MemoryBlock) :
    (({ memory with realMemory := real } : Memory).block kind).obj = (memory.block kind).obj := by
  cases kind with
  | realMemory => exact hobj
  | activeClaims => rfl

/-- **What `ipm_memory_resize_grow` does to the kernel** with its assertions compiled in. -/
theorem ipmMemoryResizeGrow_post {E : IpmResult → World → Prop} :
    Prog.Post (ipmMemoryResizeGrow ⟨false⟩ ctx os lock memory newSize) w
      (fun r w' => GrowReturned memory newSize w.kernel r.1 r.2 w'.kernel) E
      (fun _ w' => GrowStopped os lock memory.realMemory.obj newSize w.kernel w'.kernel) := by
  rw [ipmMemoryResizeGrow_eq]
  refine (growCheck_post.mapStop fun _ _ h => .inl (.inl h)).bind
    fun r w1 h1 => ?_
  cases r with
  | none => exact Prog.Post.pure ⟨fun _ => rfl, .inl h1.1, nofun⟩
  | some size =>
    obtain ⟨rfl, hpos⟩ := h1.2 size rfl
    have hw1 := h1.1
    have hne : roundSize newSize ≠ 0 := (UInt64.lt_iff_le_and_ne.mp hpos).2.symm
    refine (resizeSection_post.mapStop ?_).bind fun sec w2 h2 => ?_
    · rintro why w2 (h2 | ⟨hlock, htrunc, hshort, -⟩)
      · exact .inl (.inl (h2.trans hw1))
      · exact .inr ⟨hlock, htrunc, hshort⟩
    rw [hw1] at h2
    obtain ⟨hgrown, hsize⟩ := h2.grown hpos
    refine (resizeRemap_post.mapStop ?_).bind fun r w3 h3 => ?_
    · intro why w3 h3
      rw [h3]
      exact .inl hgrown
    obtain ⟨hw3, hobj, -, hres⟩ := h3
    refine Prog.Post.pure ⟨obj_block_update memory hobj, hw3 ▸ hgrown, fun hsuccess => ⟨hne, ?_⟩⟩
    rw [hw3]
    rcases hsize with hsize | ⟨res, hsec, hfail⟩
    · exact hsize
    · -- a refused section hands its own code on
      exact absurd ((hres res hsec).symm.trans hsuccess) hfail

/-! ## Creating -/

theorem ipmAlloc_keeps {done : Bool} : Prog.Keeps World.kernel (ipmAlloc ctx done) :=
  fun _ => ipmAlloc_post fun _ _ h => h

theorem ipmFree_keeps : Prog.Keeps World.kernel ipmFree := fun _ => ipmFree_post

theorem createClaims_spares {alloc : Bool} :
    Prog.Preserves (Sparing k) (createClaims b ctx alloc os size n) := by
  refine (Prog.Preserves.assert _ _).bind fun _ => (sparing_of_keeps ipmAlloc_keeps).bind fun _ => ?_
  refine (Prog.Preserves.assert _ _).bind fun _ => (Prog.Preserves.assert _ _).bind fun _ => ?_
  refine sharedMemoryBlockCreate_spares.onError ?_
  exact sparing_of_keeps (ipmError_keeps.bind fun _ => ipmFree_keeps)

theorem initClaims_spares {mutex : MutexInitCodes} {condition : ConditionInitCodes}
    {claims : SharedMemoryBlock} (hobj : k.fresh ≤ claims.obj) :
    Prog.Preserves (Sparing k) (initClaims ctx mutex condition claims) := by
  intro w hw
  refine initClaims_post.mono (fun _ w' h => ?_) (fun _ w' h => ?_) fun _ _ h => h
  · rw [Sparing, h]
    exact hw.modifyObj hobj
  · rw [Sparing, h.1]
    exact hw

theorem closeAndFree_spares {block : SharedMemoryBlock} (hobj : k.fresh ≤ block.obj) :
    Prog.Preserves (Sparing k) (closeAndFree b ctx os block) :=
  (sharedMemoryBlockClose_spares hobj (.pure _)).ignore.bind fun _ => sparing_of_keeps ipmFree_keeps

/-- **Creating spares every object there was**, rollbacks included. -/
theorem ipmMemoryCreate_spares {os : CreateOs} :
    Prog.Preserves (Sparing k) (ipmMemoryCreate b ctx os size n access) := by
  refine Prog.Preserves.bind_of (P := fun claims => k.fresh ≤ claims.obj) (fun w hw => ?_)
    fun claims hobj => ?_
  · refine (createClaims_any_post.and (createClaims_spares w hw)).mono (fun claims w1 h1 => ?_)
      (fun _ _ h => h.2) fun _ _ h => h.2
    obtain ⟨⟨-, hcreated⟩, hw1⟩ := h1
    exact ⟨hw.fresh.trans (Nat.le_of_eq hcreated.obj.symm), hw1⟩
  refine ((initClaims_spares hobj).onError (closeAndFree_spares hobj)).bind fun _ => ?_
  refine Prog.Preserves.bind (Prog.Preserves.onError ?_ ?_) fun real => .pure _
  · exact sharedMemoryBlockCreate_spares.onError (sparing_of_keeps ipmError_keeps)
  · refine Prog.Preserves.bind (fun w hw => ?_) fun _ => closeAndFree_spares hobj
    refine claimListUninit_post.mapRet fun _ w' h => ?_
    rw [Sparing, h]
    exact hw.modifyObj hobj

theorem sized_createdObject (hne : size ≠ 0) (hmask : size &&& memoryPageSizeMask = 0) :
    (createdObject n id size).Sized where
  pos := Nat.pos_of_ne_zero fun hzero => hne (UInt64.toNat_inj.mp hzero)
  aligned := dvd_of_mask hmask
  length := rfl

/-- A returned `ipm_memory_create`: both objects are there, with sizes that fit them. -/
structure CreateReturned (size : UInt64) (memory : Memory) (k : Kernel) : Prop where
  obj_lt : ∀ kind, (memory.block kind).obj < k.fresh
  sized : ∀ kind, (k.objs (memory.block kind).obj).Sized
  ne_zero : roundSize size ≠ 0
  blockSize : (k.header memory.realMemory.obj).blockSize = roundSize size

/-- **What `ipm_memory_create` makes**, whatever the environment answers. -/
theorem ipmMemoryCreate_sizes_post {os : CreateOs} :
    Prog.Post (ipmMemoryCreate b ctx os size n access) w
      (fun memory w' => CreateReturned size memory w'.kernel)
      (fun e _ => e ≠ .success) fun _ _ => True := by
  refine (createClaims_any_post.mono (fun _ _ h => h.2) (fun _ _ h => h.1)
    fun _ _ _ => trivial).bind fun claims w1 h1 => ?_
  have hrollback (e : IpmResult) (w2 : World) (he : e ≠ .success) :
      Prog.Post (closeAndFree b ctx os.rollback claims) w2 (fun _ _ => e ≠ .success)
        (fun _ _ => e ≠ .success) fun _ _ => True :=
    ⟨fun _ => he, fun _ => he, fun _ => trivial⟩
  refine (initClaims_post.onError fun e w2 h2 => hrollback e w2 h2.2.1).bind fun _ w2 h2 => ?_
  refine ((createReal_any_post.mono (fun _ _ h => h) (fun _ _ h => h.1)
    fun _ _ _ => trivial).onError fun e w3 he => ?_).bind fun real w3 h3 => Prog.Post.pure ?_
  · exact Prog.Post.bind (Q := fun _ _ => True) (Prog.Post.update trivial) fun _ w4 _ =>
      hrollback e w4 he
  have hfresh : w2.kernel.fresh = claims.obj + 1 := by
    rw [h2, h1.kernel, h1.obj]
    rfl
  have hclaims : w3.kernel.objs claims.obj =
      (createdObject n MemoryBlock.activeClaims.id claimSize).listed := by
    have hne : claims.obj ≠ w2.kernel.fresh := by omega
    rw [h3.kernel, Kernel.objs_build_ne _ _ _ hne, h2, Kernel.objs_modifyObj_self, h1.kernel,
      h1.obj, Kernel.objs_build_fresh]
  have hreal : w3.kernel.objs real.obj =
      createdObject n MemoryBlock.realMemory.id (roundSize size) := by
    rw [h3.kernel, h3.obj, Kernel.objs_build_fresh]
  have hfresh3 : w3.kernel.fresh = real.obj + 1 := by
    rw [h3.kernel, h3.obj]
    rfl
  have hobj := h3.obj
  refine ⟨fun kind => ?_, fun kind => ?_, h3.size_ne_zero, ?_⟩
  · cases kind with
    | realMemory => show real.obj < _; omega
    | activeClaims => show claims.obj < _; omega
  · cases kind with
    | realMemory =>
      show (w3.kernel.objs real.obj).Sized
      rw [hreal]
      exact sized_createdObject h3.size_ne_zero (roundSize_mask size)
    | activeClaims =>
      show (w3.kernel.objs claims.obj).Sized
      rw [hclaims]
      have hsized : (createdObject n MemoryBlock.activeClaims.id claimSize).Sized :=
        sized_createdObject h1.size_ne_zero (by decide)
      -- the list is behind the header page
      exact ⟨hsized.pos, hsized.aligned, hsized.length⟩
  · show (w3.kernel.objs real.obj).header.blockSize = _
    rw [hreal]
    rfl

/-! ## One call after another -/

/-- The blocks that have been created, each with a handle of it. -/
structure SizeSys where
  kernel : Kernel
  handles : List Memory

inductive SizeEvent where
  | create (c : Caller) (os : CreateOs) (blockSize : UInt64) (n : BlockName) (access : AccessMode)
  | resizeGrow (e : GrowEnv) (i : Nat) (newSize : UInt64)

/-- The size a call asks for. -/
def SizeEvent.request : SizeEvent → UInt64
  | create _ _ blockSize _ _ => blockSize
  | resizeGrow _ _ newSize => newSize

/-- A size that is truncated to leaves room for the header page below `2 ^ 64`. -/
def SizeEvent.Fits : SizeEvent → Prop
  | create _ _ _ _ _ => True
  | resizeGrow e _ newSize => e.lock = .success → e.os.ftruncate = none →
      (roundSize newSize).toNat + memoryPageSize.toNat < 2 ^ 64

instance : (a : SizeEvent) → Decidable a.Fits
  | .create _ _ _ _ _ => inferInstanceAs (Decidable True)
  | .resizeGrow e _ newSize => inferInstanceAs (Decidable (e.lock = .success →
      e.os.ftruncate = none → (roundSize newSize).toNat + memoryPageSize.toNat < 2 ^ 64))

namespace SizeSys

def init : SizeSys := { kernel := .empty, handles := [] }

/-- The end of a call: the code it returned, if it did, and the state. A failed assertion ends the
run; any other way of being stopped ends the process, and its blocks stay. -/
def ended {α : Type} (s : SizeSys) (next : α → IpmResult × List Memory) :
    Outcome World (Except IpmResult α) → Option (Option IpmResult × SizeSys)
  | .ret (.ok a) w => some (some (next a).1, ⟨w.kernel, (next a).2⟩)
  | .ret (.error e) w => some (some e, ⟨w.kernel, s.handles⟩)
  | .stop .assertion _ => none
  | .stop _ w => some (none, ⟨w.kernel, s.handles⟩)

def call (s : SizeSys) : SizeEvent → Option (Option IpmResult × SizeSys)
  | .create c os blockSize n access =>
    s.ended (fun memory => (.success, s.handles ++ [memory]))
      (ipmMemoryCreate ⟨false⟩ c.ctx os blockSize n access ⟨s.kernel, c.proc⟩)
  | .resizeGrow e i newSize =>
    (s.handles[i]?).bind fun memory =>
      s.ended (fun r => (r.1, s.handles.set i r.2))
        (ipmMemoryResizeGrow ⟨false⟩ e.ctx e.os e.lock memory newSize ⟨s.kernel, e.proc⟩)

def step (s : SizeSys) (a : SizeEvent) : Option SizeSys := (s.call a).map Prod.snd

/-- The handle a call has made or worked on. -/
def subject (s : SizeSys) : SizeEvent → Option Memory
  | .create _ _ _ _ _ => s.handles.getLast?
  | .resizeGrow _ i _ => s.handles[i]?

/-- The file of every block is as long as its header says. -/
structure SizesOk (s : SizeSys) : Prop where
  obj_lt : ∀ memory ∈ s.handles, ∀ kind, (memory.block kind).obj < s.kernel.fresh
  sized : ∀ memory ∈ s.handles, ∀ kind, (s.kernel.objs (memory.block kind).obj).Sized

variable {s s' : SizeSys} {a : SizeEvent} {k' : Kernel} {i : Nat} {memory' : Memory}

theorem sizesOk_init : SizesOk init := ⟨nofun, nofun⟩

/-- A call that is over, by how it ended. -/
theorem ended_cases {α : Type} {next : α → IpmResult × List Memory}
    {o : Outcome World (Except IpmResult α)} {res : Option IpmResult}
    (h : s.ended next o = some (res, s')) :
    (∃ a w, o = .ret (.ok a) w ∧ res = some (next a).1 ∧ s' = ⟨w.kernel, (next a).2⟩) ∨
    (∃ e w, o = .ret (.error e) w ∧ res = some e ∧ s' = ⟨w.kernel, s.handles⟩) ∨
    (∃ why w, o = .stop why w ∧ res = none ∧ s' = ⟨w.kernel, s.handles⟩) := by
  unfold ended at h
  split at h
  · cases h
    exact .inl ⟨_, _, rfl, rfl, rfl⟩
  · cases h
    exact .inr (.inl ⟨_, _, rfl, rfl, rfl⟩)
  · cases h
  · cases h
    exact .inr (.inr ⟨_, _, rfl, rfl, rfl⟩)

/-- The objects of the handles are spared. -/
theorem SizesOk.spared (h : SizesOk s) (hk : s.kernel.Spares k') : SizesOk ⟨k', s.handles⟩ := by
  refine ⟨fun memory hm kind => (h.obj_lt memory hm kind).trans_le hk.fresh, fun memory hm kind => ?_⟩
  show (k'.objs _).Sized
  rw [hk.objs _ (h.obj_lt memory hm kind)]
  exact h.sized memory hm kind

theorem SizesOk.append (h : SizesOk s) {size : UInt64} (hm : CreateReturned size memory s.kernel) :
    SizesOk ⟨s.kernel, s.handles ++ [memory]⟩ := by
  constructor
  · intro m hmem
    rcases List.mem_append.mp hmem with hold | hnew
    · exact h.obj_lt m hold
    · rw [List.mem_singleton.mp hnew]
      exact hm.obj_lt
  · intro m hmem
    rcases List.mem_append.mp hmem with hold | hnew
    · exact h.sized m hold
    · rw [List.mem_singleton.mp hnew]
      exact hm.sized

/-- Growing one object, whoever has it. -/
theorem SizesOk.grown {obj : Nat} (h : SizesOk s) (hk : Grown obj newSize s.kernel k') :
    SizesOk ⟨k', s.handles⟩ := by
  rcases hk with rfl | ⟨hpos, hroom, rfl⟩
  · exact h
  · refine ⟨h.obj_lt, fun memory hm kind => ?_⟩
    show ((s.kernel.modifyObj obj _).objs _).Sized
    by_cases hobj : (memory.block kind).obj = obj
    · rw [hobj, Kernel.objs_modifyObj_self]
      exact ShmObject.sized_grown _ hpos (roundSize_mask newSize) hroom
    · rw [Kernel.objs_modifyObj_ne _ _ hobj]
      exact h.sized memory hm kind

/-- Another view of the same two objects. -/
theorem SizesOk.set (h : SizesOk s) (hget : s.handles[i]? = some memory)
    (hobj : ∀ kind, (memory'.block kind).obj = (memory.block kind).obj) :
    SizesOk ⟨s.kernel, s.handles.set i memory'⟩ := by
  have hmem := List.mem_of_getElem? hget
  refine ⟨forall_mem_set h.obj_lt (fun _ _ hm => hm) fun kind => ?_,
    forall_mem_set h.sized (fun _ _ hm => hm) fun kind => ?_⟩
  · rw [hobj kind]
    exact h.obj_lt memory hmem kind
  · rw [hobj kind]
    exact h.sized memory hmem kind

theorem SizesOk.call {res : Option IpmResult} (h : SizesOk s) (ha : a.Fits)
    (hs : s.call a = some (res, s')) : SizesOk s' := by
  cases a with
  | create c os blockSize n access =>
    have hspares : Prog.Post (ipmMemoryCreate ⟨false⟩ c.ctx os blockSize n access)
        ⟨s.kernel, c.proc⟩ _ _ _ := ipmMemoryCreate_spares _ (Kernel.Spares.refl s.kernel)
    rcases ended_cases hs with ⟨memory, w, ho, -, rfl⟩ | ⟨e, w, ho, -, rfl⟩ | ⟨why, w, ho, -, rfl⟩
    · exact (h.spared (hspares.of_ret ho)).append (ipmMemoryCreate_sizes_post.of_ret ho)
    · exact h.spared (hspares.of_error ho)
    · exact h.spared (hspares.of_stop ho)
  | resizeGrow e i newSize =>
    obtain ⟨memory, hget, hs⟩ := Option.bind_eq_some_iff.mp hs
    have hpost : Prog.Post (ipmMemoryResizeGrow ⟨false⟩ e.ctx e.os e.lock memory newSize)
        ⟨s.kernel, e.proc⟩ _ (fun _ _ => False) _ := ipmMemoryResizeGrow_post
    rcases ended_cases hs with ⟨r, w, ho, -, rfl⟩ | ⟨e, w, ho, -, rfl⟩ | ⟨why, w, ho, -, rfl⟩
    · have hgrew := hpost.of_ret ho
      exact (h.grown hgrew.kernel).set hget hgrew.obj
    · exact (hpost.of_error ho).elim
    · rcases hpost.of_stop ho with hgrown | ⟨hlock, htrunc, hshort⟩
      · exact h.grown hgrown
      · -- the truncation had room, so it was not to less than a page
        have hroom := ha hlock htrunc
        rw [UInt64.toNat_add, Nat.add_comm, Nat.mod_eq_of_lt hroom] at hshort
        exact absurd (Nat.le_add_left _ _) (Nat.not_le.mpr hshort)

/-- A call that succeeded has got its block the size it asked for. -/
theorem leastPages_of_success (hs : s.call a = some (some .success, s')) :
    ∃ memory, s'.subject a = some memory ∧
      LeastPages a.request (s'.kernel.header memory.realMemory.obj).blockSize.toNat := by
  cases a with
  | create c os blockSize n access =>
    rcases ended_cases hs with ⟨memory, w, ho, -, rfl⟩ | ⟨e, w, ho, hres, -⟩ | ⟨why, w, -, hres, -⟩
    · have hcreated := ipmMemoryCreate_sizes_post.of_ret ho
      refine ⟨memory, by simp [subject], ?_⟩
      rw [hcreated.blockSize]
      exact roundSize_leastPages hcreated.ne_zero
    · exact absurd (Option.some_inj.mp hres).symm (ipmMemoryCreate_sizes_post.of_error ho)
    · cases hres
  | resizeGrow e i newSize =>
    obtain ⟨memory, hget, hs⟩ := Option.bind_eq_some_iff.mp hs
    have hpost : Prog.Post (ipmMemoryResizeGrow ⟨false⟩ e.ctx e.os e.lock memory newSize)
        ⟨s.kernel, e.proc⟩ _ (fun _ _ => False) _ := ipmMemoryResizeGrow_post
    rcases ended_cases hs with ⟨r, w, ho, hres, rfl⟩ | ⟨e, w, ho, -, -⟩ | ⟨why, w, -, hres, -⟩
    · have hgrew := hpost.of_ret ho
      obtain ⟨hne, hsize⟩ := hgrew.success (Option.some_inj.mp hres).symm
      have hlt : i < s.handles.length := (List.getElem?_eq_some_iff.mp hget).1
      refine ⟨r.2, by simp [subject, hlt], ?_⟩
      have hobj : r.2.realMemory.obj = memory.realMemory.obj := hgrew.obj .realMemory
      rw [hobj, hsize]
      exact roundSize_leastPages hne
    · exact (hpost.of_error ho).elim
    · cases hres

/-- **Sizes stay consistent with the files**: in every state that is reached, the file of every block
is as long as its header says, and whichever call succeeds next has the least whole number of pages
that holds what it asked for. -/
theorem sizes_of_fits {s₀ : SizeSys} (h₀ : SizesOk s₀)
    (hr : Reach step (fun _ a => a.Fits) s₀ s) :
    SizesOk s ∧ ∀ a s', s.call a = some (some .success, s') →
      ∃ memory, s'.subject a = some memory ∧
        LeastPages a.request (s'.kernel.header memory.realMemory.obj).blockSize.toNat := by
  refine ⟨hr.invariant h₀ fun t a t' h ha hs => ?_, fun a s' hs => leastPages_of_success hs⟩
  obtain ⟨⟨res, t''⟩, hcall, rfl⟩ := Option.map_eq_some_iff.mp hs
  exact h.call ha hcall

/-- A block is created and grown twice; no file can be as long as the second time asks for. -/
def grownTwice : List SizeEvent :=
  [.create LifeSys.willing LifeSys.createWilling 5000 .a .readWrite, .resizeGrow .willing 0 8193,
   .resizeGrow .willing 0 0x8000000000000000]

theorem sizes_grownTwice :
    SizesOk init ∧
    ∃ s, Reach step (fun _ a => a.Fits) init s ∧ s.handles.map (·.realMemory.size) = [12288] ∧
      SizesOk s ∧ ∀ a s', s.call a = some (some .success, s') →
        ∃ memory, s'.subject a = some memory ∧
          LeastPages a.request (s'.kernel.header memory.realMemory.obj).blockSize.toNat := by
  have htrace : ∃ s, Reach step (fun _ a => a.Fits) init s ∧
      s.handles.map (·.realMemory.size) = [12288] :=
    exists_reach_of_trace (g := fun _ a => decide a.Fits)
      (t := fun s => decide (s.handles.map (·.realMemory.size) = [12288])) grownTwice
      (fun _ _ h => of_decide_eq_true h) (fun _ h => of_decide_eq_true h) (by decide +kernel)
  obtain ⟨s, hr, hsize⟩ := htrace
  exact ⟨sizesOk_init, s, hr, hsize, sizes_of_fits sizesOk_init hr⟩

/-! ## Where it goes wrong -/

/-- The block is grown to a size that rounds to `2 ^ 64 - 4096`, which ends the process. -/
def wrapped : List SizeEvent :=
  [.create LifeSys.willing LifeSys.createWilling 4096 .a .readWrite,
   .resizeGrow .willing 0 0xffffffffffffe001]

/-- Somebody else is told that the block exists. -/
def again : SizeEvent := .create LifeSys.willing LifeSys.createWilling 4096 .a .readWrite

def emptyNext (s : SizeSys) : Bool :=
  (s.call again).any fun r => decide (r.1 = some .errExists) && r.2.handles.any fun memory =>
    decide (r.2.kernel.names (objectPath .a .realMemory) = some memory.realMemory.obj) &&
      decide ((r.2.kernel.objs memory.realMemory.obj).length = 0)

theorem not_sized_of_emptyNext (h : s.emptyNext = true) :
    ∃ s', s.call again = some (some .errExists, s') ∧ ∃ memory ∈ s'.handles,
      s'.kernel.names (objectPath .a .realMemory) = some memory.realMemory.obj ∧
        ¬ (s'.kernel.objs memory.realMemory.obj).Sized := by
  obtain ⟨⟨res, s'⟩, hcall, htest⟩ := (Option.any_eq_true _ _).mp h
  rw [Bool.and_eq_true, decide_eq_true_eq, List.any_eq_true] at htest
  obtain ⟨hres, memory, hmem, hmemory⟩ := htest
  rw [Bool.and_eq_true, decide_eq_true_eq, decide_eq_true_eq] at hmemory
  obtain ⟨hname, hlength⟩ := hmemory
  dsimp only at hres
  subst hres
  refine ⟨s', hcall, memory, hmem, hname, fun hsized => ?_⟩
  have hpos := hsized.length.symm.trans hlength
  exact absurd (Nat.eq_zero_of_add_eq_zero_right hpos) hsized.pos.ne'

theorem wrapped_not_sized :
    SizesOk init ∧
    ∃ s, Reach step (fun _ _ => True) init s ∧
      ∃ s', s.call again = some (some .errExists, s') ∧ ∃ memory ∈ s'.handles,
        s'.kernel.names (objectPath .a .realMemory) = some memory.realMemory.obj ∧
          ¬ (s'.kernel.objs memory.realMemory.obj).Sized :=
  ⟨sizesOk_init, exists_reach_of_trace (g := fun _ _ => true) (t := emptyNext) wrapped
    (fun _ _ _ => trivial) (fun _ h => not_sized_of_emptyNext h) (by decide +kernel)⟩

end SizeSys

end Ipm
