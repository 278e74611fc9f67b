import Ipm.Block.Ownership
import Ipm.Memory.FailedGrow

/-!
# What whole ownership is good for

`segment_mutex` is one mutex with two uses: `acquire_memory_block_whole` keeps it, and
`shared_memory_block_resize` takes it for the time it changes the size. So whoever has acquired a block
keeps everybody from resizing it, and itself as well, since the mutex checks for that. The others wait,
and the owner is refused.

The processes of the system make these calls and remappings in any order, and die, by themselves or of
an assertion. What the owner may not do is die, and nobody may come to a lock that fails with
`EOWNERDEAD` left in `errno`, which `ipm_mutex_lock` would take for its answer.
-/

set_option autoImplicit false

namespace Ipm

open Lib

/-- A block with its `segment_mutex`, and the handles of it; handle `i` is in process `i`. -/
structure SegmentSys where
  kernel : Kernel
  mutex : RobustMutex Nat
  handles : List SharedMemoryBlock

/-- What the environment answers to one call. -/
structure SegmentEnv where
  ctx : Context
  os : Os
  proc : Proc
  refused : Option Errno

inductive SegmentEvent where
  | acquire (i : Nat) (errno : Errno)
  | release (i : Nat)
  | resize (i : Nat) (e : SegmentEnv) (newSize : UInt64)
  | updateMapping (i : Nat) (e : SegmentEnv) (mode : AccessMode)
  | die (i : Nat)

namespace SegmentSys

/-- Handle `i` and the mutex after a call. -/
def put (s : SegmentSys) (i : Nat) (r : IpmResult × SharedMemoryBlock × RobustMutex Nat) :
    SegmentSys :=
  { s with mutex := r.2.2, handles := s.handles.set i r.2.1 }

/-- The system after a call of process `i`. A call that spins is one that waits. -/
def settle (s : SegmentSys) (i : Nat) :
    Outcome Segment (Except IpmResult (IpmResult × SharedMemoryBlock)) → Option SegmentSys
  | .ret (.ok r) t => some ⟨t.world.kernel, t.mutex, s.handles.set i r.2⟩
  | .ret (.error _) t => some ⟨t.world.kernel, t.mutex, s.handles⟩
  | .stop .spin _ => none
  | .stop _ t => some ⟨t.world.kernel, t.mutex.die i, s.handles⟩

def step (b : Build) (s : SegmentSys) : SegmentEvent → Option SegmentSys
  | .acquire i errno =>
    (s.handles[i]?).bind fun block => (acquireMemoryBlockWhole i errno block s.mutex).map (s.put i)
  | .release i => (s.handles[i]?).map fun block => s.put i (releaseMemoryBlockWhole i block s.mutex)
  | .resize i e newSize =>
    (s.handles[i]?).bind fun block => s.settle i
      (sharedMemoryBlockResizeBy b e.ctx e.os i e.refused block newSize ⟨⟨s.kernel, e.proc⟩, s.mutex⟩)
  | .updateMapping i e mode =>
    (s.handles[i]?).bind fun block => s.settle i
      (beside (sharedMemoryBlockUpdateMapping e.ctx e.os block mode) ⟨⟨s.kernel, e.proc⟩, s.mutex⟩)
  | .die i => some { s with mutex := s.mutex.die i }

/-- Process `owner` lives, and no lock that fails is mistaken for one that has found its owner dead. -/
def Spares (owner obj : Nat) (s : SegmentSys) : SegmentEvent → Prop
  | .acquire _ errno => errno ≠ .EOWNERDEAD
  | .release _ => True
  | .resize i e newSize => e.refused ≠ some .EOWNERDEAD ∧ e.proc.errno ≠ .EOWNERDEAD ∧
      (i = owner → ResizeAsserts (s.kernel.header obj).blockSize newSize)
  | .updateMapping _ _ _ => True
  | .die i => i ≠ owner

/-- Handles of the object `obj`, whose header page is there, and handle `i` has acquired it whole. -/
structure OwnedBy (i obj : Nat) (s : SegmentSys) : Prop where
  mutex : s.mutex = .held i
  noted : ∀ block, s.handles[i]? = some block → block.hasOwnership = true
  same : ∀ block ∈ s.handles, block.obj = obj
  page : memoryPageSize.toNat ≤ (s.kernel.objs obj).length

variable {b : Build} {s s' : SegmentSys} {i j obj : Nat} {a : SegmentEvent}
variable {block : SharedMemoryBlock} {w : World} {ctx : Context} {os : Os} {newSize : UInt64}

/-! ## Nobody else gets the mutex -/

/-- A lock that fails says so. -/
theorem ipmMutexLock_ne_success {code errno : Errno} (hcode : code ≠ .EOWNERDEAD)
    (herrno : errno ≠ .EOWNERDEAD) : ipmMutexLock (some code) errno ≠ .success := by
  cases code with
  | EOWNERDEAD => exact absurd rfl hcode
  | _ =>
    cases errno with
    | EOWNERDEAD => exact absurd rfl herrno
    | _ => nofun

/-- A mutex in use is not had, by its owner or by others. -/
theorem lock_held {refused : Option Errno} {errno : Errno} {res : IpmResult} {m : RobustMutex Nat}
    (h : ipmMutexLockBy (.held i) j refused errno = some (res, m)) (hrefused : refused ≠ some .EOWNERDEAD)
    (herrno : errno ≠ .EOWNERDEAD) : res ≠ .success ∧ m = .held i := by
  have hcode : ∀ code m₁, pthreadMutexLock (.held i : RobustMutex Nat) j refused = some (code, m₁) →
      m₁ = .held i ∧ ∃ c, code = some c ∧ c ≠ .EOWNERDEAD := by
    intro code m₁ hlock
    cases refused with
    | some c =>
      obtain ⟨rfl, rfl⟩ := Prod.mk.inj (Option.some.inj hlock)
      exact ⟨rfl, c, rfl, fun hc => hrefused (by rw [hc])⟩
    | none =>
      simp only [pthreadMutexLock, RobustMutex.acquire, reduceCtorEq, if_false] at hlock
      split_ifs at hlock
      obtain ⟨rfl, rfl⟩ := Prod.mk.inj (Option.some.inj hlock)
      exact ⟨rfl, .EDEADLK, rfl, by decide⟩
  obtain ⟨⟨code, m₁⟩, hlock, hres⟩ := Option.map_eq_some_iff.mp h
  obtain ⟨rfl, c, rfl, hc⟩ := hcode code m₁ hlock
  obtain ⟨rfl, rfl⟩ := Prod.mk.inj hres
  refine ⟨ipmMutexLock_ne_success hc herrno, if_neg ?_⟩
  rintro (hsame | ⟨-, hsame⟩)
  · exact hc (Option.some.inj hsame)
  · exact herrno hsame

theorem beside_post {α : Type} {p : Call α} {Q : α → World → Prop} {E : IpmResult → World → Prop}
    {S : Stop → World → Prop} {m : RobustMutex Nat} (h : Prog.Post p w Q E S) :
    Prog.Post (beside p) ⟨w, m⟩ (fun a t => Q a t.world ∧ t.mutex = m)
      (fun e t => E e t.world ∧ t.mutex = m) fun why t => S why t.world ∧ t.mutex = m := by
  rw [Prog.post_iff, beside]
  cases hp : p w with
  | ret r w' =>
    cases r with
    | ok a => exact ⟨h.of_ret hp, rfl⟩
    | error e => exact ⟨h.of_error hp, rfl⟩
  | stop why w' => exact ⟨h.of_stop hp, rfl⟩

/-- A resize while somebody owns the block changes nothing, if it returns at all. -/
theorem resizeBy_held {refused : Option Errno} (hrefused : refused ≠ some .EOWNERDEAD)
    (herrno : w.proc.errno ≠ .EOWNERDEAD) :
    Prog.Post (sharedMemoryBlockResizeBy b ctx os j refused block newSize) ⟨w, .held i⟩
      (fun r t => (t.world.kernel = w.kernel ∧ t.mutex = .held i) ∧ r.2 = block)
      (fun _ t => t.world.kernel = w.kernel ∧ t.mutex = .held i)
      (fun why t => (t.world.kernel = w.kernel ∧ t.mutex = .held i) ∧
        (why = .spin ∨ resizeCheck b block newSize w ≠ .ret (.ok ()) w)) := by
  have hkept : Prog.Post (resizeCheck b block newSize) w _ _ _ := resizeCheck_keeps_world w
  have hcheck : Prog.Post (resizeCheck b block newSize) w (fun _ w' => w' = w)
      (fun _ w' => w' = w) fun _ w' => w' = w ∧ resizeCheck b block newSize w ≠ .ret (.ok ()) w :=
    ⟨hkept.of_ret, hkept.of_error, fun hp => ⟨hkept.of_stop hp, by rw [hp]; nofun⟩⟩
  have hlock : Prog.Post (lockSegment j refused) ⟨w, .held i⟩
      (fun res t => res ≠ .success ∧ t = ⟨w, .held i⟩) (fun _ _ => False)
      fun why t => why = .spin ∧ t = ⟨w, .held i⟩ := by
    rw [Prog.post_iff, lockSegment]
    cases hl : ipmMutexLockBy (.held i) j refused w.proc.errno with
    | none => exact ⟨rfl, rfl⟩
    | some r =>
      obtain ⟨res, m⟩ := r
      obtain ⟨hres, rfl⟩ := lock_held hl hrefused herrno
      exact ⟨hres, rfl⟩
  refine ((beside_post hcheck).mono (fun _ _ h => h) (fun _ t h => ⟨h.1 ▸ rfl, h.2⟩)
    fun why t h => ⟨⟨h.1.1 ▸ rfl, h.2⟩, .inr h.1.2⟩).bind fun _ t ht => ?_
  obtain rfl : t = ⟨w, .held i⟩ := by
    obtain ⟨hw, hm⟩ := ht
    cases t
    subst hw hm
    rfl
  refine (hlock.mono (fun _ _ h => h) (fun _ _ h => h.elim)
    fun why t h => ⟨h.2 ▸ ⟨rfl, rfl⟩, .inl h.1⟩).bind fun res t ht => ?_
  obtain ⟨hres, rfl⟩ := ht
  rw [if_pos hres]
  have hreport : Prog.Post (beside (ipmError ctx)) ⟨w, .held i⟩
      (fun _ t => t.world.kernel = w.kernel ∧ t.mutex = .held i)
      (fun _ t => False ∧ t.mutex = .held i) fun _ t => False ∧ t.mutex = .held i :=
    beside_post (ipmError_post (E := fun _ _ => False) (S := fun _ _ => False))
  exact (hreport.mono (fun _ _ h => h) (fun _ _ h => h.1.elim) fun _ _ h => h.1.elim).bind
    fun _ t ht => Prog.Post.pure ⟨ht, rfl⟩

theorem updateMapping_noted_post {mode : AccessMode} :
    Prog.Post (sharedMemoryBlockUpdateMapping ctx os block mode) w
      (fun r _ => r.2.hasOwnership = block.hasOwnership) (fun _ _ => True) fun _ _ => True := by
  refine (getHeader_any_post.mapStop fun _ _ _ => trivial).bind fun hd w1 _ => ?_
  dsimp only
  split
  · exact Prog.Post.pure rfl
  · refine munmap_post.bind fun _ w2 _ => mmap_post.bind fun r w3 _ => ?_
    cases r with
    | none => exact ipmError_post.bind fun _ w4 _ => Prog.Post.pure rfl
    | some addr => exact Prog.Post.pure rfl

/-! ## Nothing changes -/

/-- A call that leaves the mutex and the objects alone, and the handle the note it has. -/
theorem OwnedBy.settle {m : SegmentCall (IpmResult × SharedMemoryBlock)} {p : Proc}
    (h : OwnedBy i obj s) (hget : s.handles[j]? = some block)
    (hpost : Prog.Post m ⟨⟨s.kernel, p⟩, s.mutex⟩
      (fun r t => (t.world.kernel = s.kernel ∧ t.mutex = s.mutex) ∧ r.2.obj = block.obj ∧
        r.2.hasOwnership = block.hasOwnership)
      (fun _ t => t.world.kernel = s.kernel ∧ t.mutex = s.mutex)
      (fun why t => (t.world.kernel = s.kernel ∧ t.mutex = s.mutex) ∧ (why = .spin ∨ j ≠ i)))
    (hs : s.settle j (m ⟨⟨s.kernel, p⟩, s.mutex⟩) = some s') :
    OwnedBy i obj s' ∧ s'.kernel = s.kernel := by
  have hdies : j ≠ i → s.mutex.die j = .held i := by
    intro hne
    rw [h.mutex]
    exact if_neg (Ne.symm hne)
  cases hout : m ⟨⟨s.kernel, p⟩, s.mutex⟩ with
  | ret r t =>
    rw [hout] at hs
    cases r with
    | ok r =>
      obtain ⟨⟨hk, hm⟩, hobj, hnote⟩ := hpost.of_ret hout
      cases hs
      refine ⟨⟨hm.trans h.mutex, fun blk hblk => ?_, ?_, hk ▸ h.page⟩, hk⟩
      · rcases getElem?_set_cases hblk with ⟨rfl, rfl⟩ | ⟨-, hold⟩
        · rw [hnote]
          exact h.noted block hget
        · exact h.noted blk hold
      · exact forall_mem_set h.same (fun _ _ hold => hold)
          (hobj.trans (h.same block (List.mem_of_getElem? hget)))
    | error e =>
      obtain ⟨hk, hm⟩ := hpost.of_error hout
      cases hs
      exact ⟨⟨hm.trans h.mutex, h.noted, h.same, hk ▸ h.page⟩, hk⟩
  | stop why t =>
    obtain ⟨⟨hk, hm⟩, hwhy⟩ := hpost.of_stop hout
    rw [hout] at hs
    cases why with
    | spin => cases hs
    | assertion =>
      cases hs
      have hne : j ≠ i := hwhy.resolve_left nofun
      exact ⟨⟨hm ▸ hdies hne, h.noted, h.same, hk ▸ h.page⟩, hk⟩
    | fault =>
      cases hs
      have hne : j ≠ i := hwhy.resolve_left nofun
      exact ⟨⟨hm ▸ hdies hne, h.noted, h.same, hk ▸ h.page⟩, hk⟩

/-- The calls that change nothing at all. -/
theorem put_same {r : IpmResult × SharedMemoryBlock × RobustMutex Nat}
    (hget : s.handles[j]? = some block) (hr : r.2 = (block, s.mutex)) : s.put j r = s := by
  obtain ⟨hlt, rfl⟩ := List.getElem?_eq_some_iff.mp hget
  rw [SegmentSys.put, hr, List.set_getElem_self hlt]

theorem OwnedBy.step (h : OwnedBy i obj s) (ha : Spares i obj s a) (hs : step b s a = some s') :
    OwnedBy i obj s' ∧ s'.kernel = s.kernel := by
  cases a with
  | acquire j errno =>
    obtain ⟨block, hget, hs⟩ := Option.bind_eq_some_iff.mp hs
    obtain ⟨r, hr, rfl⟩ := Option.map_eq_some_iff.mp hs
    have hsame : r.2 = (block, s.mutex) := by
      unfold acquireMemoryBlockWhole at hr
      split_ifs at hr
      · exact (congrArg Prod.snd (Option.some.inj hr)).symm
      · obtain ⟨⟨res, m⟩, hlock, rfl⟩ := Option.map_eq_some_iff.mp hr
        rw [h.mutex] at hlock
        obtain ⟨hres, rfl⟩ := lock_held hlock nofun ha
        rw [h.mutex]
        exact congrArg Prod.snd (if_pos hres)
    rw [put_same hget hsame]
    exact ⟨h, rfl⟩
  | release j =>
    obtain ⟨block, hget, rfl⟩ := Option.map_eq_some_iff.mp hs
    have hsame : (releaseMemoryBlockWhole j block s.mutex).2 = (block, s.mutex) := by
      unfold releaseMemoryBlockWhole
      split_ifs with hnote
      · rfl
      · have hne : s.mutex.owner ≠ some j := by
          rw [h.mutex]
          rintro hsame
          obtain rfl := Option.some.inj hsame
          exact hnote (h.noted block hget)
        rw [RobustMutex.unlock_of_ne hne]
        rw [Bool.not_eq_true] at hnote
        rw [← hnote]
    rw [put_same hget hsame]
    exact ⟨h, rfl⟩
  | resize j e newSize =>
    obtain ⟨block, hget, hs⟩ := Option.bind_eq_some_iff.mp hs
    obtain ⟨hrefused, herrno, hasserts⟩ := ha
    have hobj := h.same block (List.mem_of_getElem? hget)
    refine h.settle hget ?_ hs
    rw [h.mutex]
    refine (resizeBy_held hrefused herrno).mono (fun r t hq => ?_) (fun _ _ hq => hq) fun why t hq => ?_
    · rw [hq.2]
      exact ⟨hq.1, rfl, rfl⟩
    · refine ⟨hq.1, hq.2.imp_right fun hcheck hme => hcheck ?_⟩
      exact resizeCheck_ret (hobj ▸ h.page) (hobj ▸ hasserts hme)
  | updateMapping j e mode =>
    obtain ⟨block, hget, hs⟩ := Option.bind_eq_some_iff.mp hs
    have hobj := h.same block (List.mem_of_getElem? hget)
    refine h.settle hget ?_ hs
    have hpage : memoryPageSize.toNat ≤ (s.kernel.objs block.obj).length := hobj ▸ h.page
    obtain ⟨r, w', hret⟩ := updateMapping_ret (w := ⟨s.kernel, e.proc⟩) e.ctx e.os mode hpage
    rw [Prog.post_iff, beside_ret hret]
    obtain ⟨hk, hblock, -⟩ := (updateMapping_post (E := fun _ _ => True)).of_ret hret
    exact ⟨⟨hk, rfl⟩, hblock, updateMapping_noted_post.of_ret hret⟩
  | die j =>
    cases hs
    refine ⟨⟨?_, h.noted, h.same, h.page⟩, rfl⟩
    show s.mutex.die j = .held i
    rw [h.mutex]
    exact if_neg (Ne.symm ha)

theorem OwnedBy.run (hown : OwnedBy i obj s) (hr : Reach (SegmentSys.step b) (Spares i obj) s s') :
    s'.kernel = s.kernel ∧ OwnedBy i obj s' :=
  hr.invariant (I := fun t => t.kernel = s.kernel ∧ OwnedBy i obj t) ⟨rfl, hown⟩
    fun _ _ _ h ha hs => ⟨(h.2.step ha hs).2.trans h.1, (h.2.step ha hs).1⟩

/-- An acquisition that succeeds has the mutex and makes the note. -/
theorem acquired {errno : Errno} {r : SharedMemoryBlock × RobustMutex Nat} {m : RobustMutex Nat}
    (hacq : acquireMemoryBlockWhole i errno block m = some (.success, r))
    (herrno : errno ≠ .EOWNERDEAD) : r = ({ block with hasOwnership := true }, .held i) := by
  unfold acquireMemoryBlockWhole at hacq
  split_ifs at hacq
  · cases hacq
  · obtain ⟨⟨res, m'⟩, hlock, hr⟩ := Option.map_eq_some_iff.mp hacq
    dsimp only at hr
    split_ifs at hr with hres
    · exact absurd (congrArg Prod.fst hr) hres
    · rw [not_not] at hres
      obtain ⟨-, rfl⟩ := Prod.mk.inj hr
      cases hgot : m.acquire i with
      | some got =>
        rw [ipmMutexLockBy_acquire hgot] at hlock
        rw [← (Prod.mk.inj (Option.some.inj hlock)).2]
      | none =>
        -- the code is an error, and was taken for one
        obtain ⟨⟨code, m₁⟩, hcode, heq⟩ := Option.map_eq_some_iff.mp hlock
        simp only [pthreadMutexLock, hgot] at hcode
        have hfails := (Prod.mk.inj heq).1.trans hres
        split_ifs at hcode
        · rw [← (Prod.mk.inj (Option.some.inj hcode)).1] at hfails
          exact absurd hfails (ipmMutexLock_ne_success (by decide) herrno)
        · rw [← (Prod.mk.inj (Option.some.inj hcode)).1] at hfails
          exact absurd hfails (ipmMutexLock_ne_success (by decide) herrno)

/-- **Whole ownership keeps the block as it is**: from a successful acquisition on, and as long as the
owner's process lives, no call of any process changes the size of the block, or anything else of it. -/
theorem frozen_of_acquired {errno : Errno} {r : SharedMemoryBlock × RobustMutex Nat}
    (hget : s.handles[i]? = some block)
    (hacq : acquireMemoryBlockWhole i errno block s.mutex = some (.success, r))
    (herrno : errno ≠ .EOWNERDEAD) (hsame : ∀ block ∈ s.handles, block.obj = obj)
    (hpage : memoryPageSize.toNat ≤ (s.kernel.objs obj).length)
    (hr : Reach (SegmentSys.step b) (Spares i obj) (s.put i (.success, r)) s') :
    s'.kernel = s.kernel ∧ s'.mutex = .held i := by
  obtain rfl := acquired hacq herrno
  have hown : OwnedBy i obj (s.put i (.success, { block with hasOwnership := true }, .held i)) := by
    refine ⟨rfl, fun blk hblk => ?_, ?_, hpage⟩
    · rcases getElem?_set_cases hblk with ⟨-, rfl⟩ | ⟨hne, -⟩
      · rfl
      · exact absurd rfl hne
    · exact forall_mem_set hsame (fun _ _ hold => hold) (hsame block (List.mem_of_getElem? hget))
  obtain ⟨hk, howned⟩ := hown.run hr
  exact ⟨hk, howned.mutex⟩

/-- A block with two handles, neither of which has it. -/
def twoOpen : SegmentSys :=
  { kernel := Kernel.empty.build ['a'] (createdObject .a 1 4096), mutex := .free,
    handles := WholeSys.twoHandles }

/-- The first of them, and what it becomes. -/
def firstOpen : SharedMemoryBlock := ⟨1, 4096, 0x8000, 0x10000, false, .readWrite, ⟨3, 0⟩⟩

/-- The first handle acquires the block and is refused to resize it; the other one gives it back, without
having it, has itself remapped, and dies. -/
theorem frozen_twoOpen :
    ∃ s', Reach (SegmentSys.step ⟨false⟩) (Spares 0 0)
        (twoOpen.put 0 (.success, { firstOpen with hasOwnership := true }, .held 0)) s' ∧
      s'.kernel = twoOpen.kernel ∧ s'.mutex = .held 0 := by
  let e : SegmentEnv := ⟨⟨fun e => e⟩, .willing, .initial, none⟩
  -- from the acquisition on
  have h0 : Reach (SegmentSys.step ⟨false⟩) (Spares 0 0)
      (twoOpen.put 0 (.success, { firstOpen with hasOwnership := true }, .held 0)) _ := .init
  have h1 : Reach (SegmentSys.step ⟨false⟩) (Spares 0 0) _ _ :=
    .next (a := .resize 0 e 8192) h0 ⟨nofun, nofun, fun _ => ⟨by decide, by decide, by decide⟩⟩ rfl
  have h2 : Reach (SegmentSys.step ⟨false⟩) (Spares 0 0) _ _ := .next (a := .release 1) h1 trivial rfl
  have h3 : Reach (SegmentSys.step ⟨false⟩) (Spares 0 0) _ _ :=
    .next (a := .updateMapping 1 e .readOnly) h2 trivial rfl
  have h4 : Reach (SegmentSys.step ⟨false⟩) (Spares 0 0) _ _ := .next (a := .die 1) h3 nofun rfl
  have hget : twoOpen.handles[0]? = some firstOpen := rfl
  have hacq : acquireMemoryBlockWhole 0 (.other 0) firstOpen twoOpen.mutex =
      some (.success, { firstOpen with hasOwnership := true }, .held 0) := rfl
  exact ⟨_, h4, frozen_of_acquired hget hacq nofun (by decide) (by decide) h4⟩

end SegmentSys

end Ipm
