import Ipm.Block.Shared
import Ipm.Core.Mutex
import Ipm.Lib.Reach

/-!
# Ownership of a whole block

`acquire_memory_block_whole` locks the `segment_mutex` of the header and notes it in the handle;
`release_memory_block_whole` is to undo both. The note is private and the mutex shared, and they do
agree in every run. That is so because the release never gives anything back: its test is the one of
the acquisition, so the owner is told that it has nothing to release, and everybody else is told that
it has been released.
-/

set_option autoImplicit false

namespace Ipm

open Lib

/-- `acquire_memory_block_whole` by process `me`; `none` is a call that waits for the mutex. -/
def acquireMemoryBlockWhole (me : Nat) (errno : Errno) (block : SharedMemoryBlock)
    (mutex : RobustMutex Nat) : Option (IpmResult × SharedMemoryBlock × RobustMutex Nat) :=
  if block.hasOwnership then some (.errAlreadyLocked, block, mutex)
  else
    (ipmMutexLockBy mutex me none errno).map fun (waitRes, mutex) =>
      if waitRes ≠ .success then (waitRes, block, mutex)
      else (.success, { block with hasOwnership := true }, mutex)

/-- `release_memory_block_whole`. The test is the wrong way round, and what `ipm_mutex_unlock` says is
dropped. -/
def releaseMemoryBlockWhole (me : Nat) (block : SharedMemoryBlock) (mutex : RobustMutex Nat) :
    IpmResult × SharedMemoryBlock × RobustMutex Nat :=
  if block.hasOwnership then (.errNotLocked, block, mutex)
  else (.success, { block with hasOwnership := false }, mutex.unlock me)

/-- The mutex of one block, and the handles of it; handle `i` is in process `i`. -/
structure WholeSys where
  mutex : RobustMutex Nat
  handles : List SharedMemoryBlock
  deriving DecidableEq, Repr

inductive WholeCall where
  | acquire (i : Nat) (errno : Errno)
  | release (i : Nat)
  deriving DecidableEq, Repr

namespace WholeSys

/-- Handle `i` and the mutex after a call. -/
def put (s : WholeSys) (i : Nat) (r : IpmResult × SharedMemoryBlock × RobustMutex Nat) : WholeSys :=
  { mutex := r.2.2, handles := s.handles.set i r.2.1 }

def step (s : WholeSys) : WholeCall → Option WholeSys
  | .acquire i errno =>
    (s.handles[i]?).bind fun block => (acquireMemoryBlockWhole i errno block s.mutex).map (s.put i)
  | .release i => (s.handles[i]?).map fun block => s.put i (releaseMemoryBlockWhole i block s.mutex)

/-- Handles that have just been created or opened. -/
def init (handles : List SharedMemoryBlock) : WholeSys :=
  { mutex := .free, handles := handles.map fun block => { block with hasOwnership := false } }

/-! ## What a faithful lock is -/

/-- The note and the mutex agree. -/
def Agrees (s : WholeSys) : Prop :=
  ∀ i block, s.handles[i]? = some block → (block.hasOwnership = true ↔ s.mutex.owner = some i)

/-- At most one handle has the block. -/
def Exclusive (s : WholeSys) : Prop :=
  ∀ (i j : Nat) (b₁ b₂ : SharedMemoryBlock), s.handles[i]? = some b₁ → s.handles[j]? = some b₂ →
    b₁.hasOwnership = true → b₂.hasOwnership = true → i = j

/-- A release gives back what the handle has, and says so; without anything to give back it says that
and does nothing. -/
structure GivesBack (i : Nat) (block : SharedMemoryBlock) (mutex : RobustMutex Nat) : Prop where
  success : (releaseMemoryBlockWhole i block mutex).1 = .success ↔ block.hasOwnership = true
  freed : block.hasOwnership = true → (releaseMemoryBlockWhole i block mutex).2.2 = .free
  refused : block.hasOwnership = false →
    releaseMemoryBlockWhole i block mutex = (.errNotLocked, block, mutex)

/-- The releases among the calls do what they are for. -/
def CallFaithful (s : WholeSys) : WholeCall → Prop
  | .acquire _ _ => True
  | .release i => ∀ block, s.handles[i]? = some block → GivesBack i block s.mutex

/-- All along a run. -/
def Faithful (s : WholeSys) : List WholeCall → Prop
  | [] => s.Agrees ∧ s.Exclusive
  | call :: calls => (s.Agrees ∧ s.Exclusive) ∧ s.CallFaithful call ∧
      ∀ s', s.step call = some s' → s'.Faithful calls

variable {s s' : WholeSys} {i : Nat} {errno : Errno} {block : SharedMemoryBlock}
variable {mutex : RobustMutex Nat} {call : WholeCall}

/-! ## The note and the mutex -/

/-- No handle gives anything back. -/
theorem not_givesBack (i : Nat) (block : SharedMemoryBlock) (mutex : RobustMutex Nat) :
    ¬ GivesBack i block mutex := by
  intro h
  cases hown : block.hasOwnership with
  | true =>
    have hsuccess := h.success.mpr hown
    rw [releaseMemoryBlockWhole, if_pos hown] at hsuccess
    cases hsuccess
  | false =>
    have hrefused := h.refused hown
    rw [releaseMemoryBlockWhole, if_neg (by rw [hown]; exact Bool.false_ne_true)] at hrefused
    cases (Prod.mk.inj hrefused).1

theorem Agrees.exclusive (h : s.Agrees) : s.Exclusive := by
  intro i j b₁ b₂ hi hj h₁ h₂
  have hown₁ := (h i b₁ hi).mp h₁
  have hown₂ := (h j b₂ hj).mp h₂
  rw [hown₁] at hown₂
  exact Option.some.inj hown₂

/-- **One call.** A mutex in use is in the hands of a handle with the note, or nothing has changed. -/
theorem Agrees.put {r : IpmResult × SharedMemoryBlock × RobustMutex Nat} (h : s.Agrees)
    (hget : s.handles[i]? = some block)
    (hr : r.2 = (block, s.mutex) ∨
      s.mutex.owner = none ∧ r.2.1.hasOwnership = true ∧ r.2.2.owner = some i) :
    (s.put i r).Agrees := by
  intro j b₁ hj
  have hlt : i < s.handles.length := (List.getElem?_eq_some_iff.mp hget).1
  have hset : (s.handles.set i r.2.1)[j]? = some b₁ := hj
  rw [List.getElem?_set] at hset
  rcases hr with hsame | ⟨hfree, hnote, howner⟩
  · obtain ⟨hblock, hmutex⟩ := Prod.mk.inj hsame
    show b₁.hasOwnership = true ↔ r.2.2.owner = some j
    rw [hmutex]
    split_ifs at hset with hij
    · subst hij
      rw [← Option.some.inj hset, hblock]
      exact h i block hget
    · exact h j b₁ hset
  · show b₁.hasOwnership = true ↔ r.2.2.owner = some j
    rw [howner]
    split_ifs at hset with hij
    · subst hij
      rw [← Option.some.inj hset]
      exact ⟨fun _ => rfl, fun _ => hnote⟩
    · have hother := h j b₁ hset
      rw [hfree] at hother
      constructor
      · intro hown
        exact absurd (hother.mp hown).symm (Option.some_ne_none j)
      · intro hsame
        exact absurd (Option.some.inj hsame) hij

/-- The invariant: the note and the mutex agree, and the mutex is one that nobody has died with. -/
structure Inv (s : WholeSys) : Prop where
  agrees : s.Agrees
  sound : s.mutex.Sound fun _ => False

theorem Inv.not_owner (h : s.Inv) (hget : s.handles[i]? = some block)
    (hnote : ¬ block.hasOwnership = true) : s.mutex.owner ≠ some i :=
  fun hmine => hnote ((h.agrees i block hget).mpr hmine)

/-- An acquisition that returns has found the note, or the mutex free. -/
theorem Inv.acquire {r : IpmResult × SharedMemoryBlock × RobustMutex Nat} (h : s.Inv)
    (hget : s.handles[i]? = some block)
    (hr : acquireMemoryBlockWhole i errno block s.mutex = some r) :
    r.2 = (block, s.mutex) ∨ s.mutex.owner = none ∧ r.2.1.hasOwnership = true ∧ r.2.2 = .held i := by
  rw [acquireMemoryBlockWhole] at hr
  split_ifs at hr with hnote
  · obtain rfl := Option.some.inj hr
    exact .inl rfl
  · obtain ⟨⟨waitRes, mutex⟩, hlock, rfl⟩ := Option.map_eq_some_iff.mp hr
    cases hacq : s.mutex.acquire i with
    | some got =>
      rw [ipmMutexLockBy_acquire hacq] at hlock
      obtain ⟨rfl, rfl⟩ := Prod.mk.inj (Option.some.inj hlock)
      exact .inr ⟨(RobustMutex.owner_of_acquire hacq).1, rfl, rfl⟩
    | none =>
      rw [ipmMutexLockBy_waits hacq (h.not_owner hget hnote) h.sound.usable] at hlock
      cases hlock

/-- A release changes nothing at all. -/
theorem Inv.release (h : s.Inv) (hget : s.handles[i]? = some block) :
    (releaseMemoryBlockWhole i block s.mutex).2 = (block, s.mutex) := by
  rw [releaseMemoryBlockWhole]
  split_ifs with hnote
  · rfl
  · rw [RobustMutex.unlock_of_ne (h.not_owner hget hnote)]
    rw [Bool.not_eq_true] at hnote
    rw [← hnote]

theorem Inv.step (h : s.Inv) (hs : s.step call = some s') : s'.Inv := by
  cases call with
  | acquire i errno =>
    obtain ⟨block, hget, hcall⟩ := Option.bind_eq_some_iff.mp hs
    obtain ⟨r, hr, rfl⟩ := Option.map_eq_some_iff.mp hcall
    rcases h.acquire hget hr with hsame | ⟨hfree, hnote, hheld⟩
    · refine ⟨h.agrees.put hget (.inl hsame), ?_⟩
      rw [put, hsame]
      exact h.sound
    · refine ⟨h.agrees.put hget (.inr ⟨hfree, hnote, by rw [hheld]; rfl⟩), ?_⟩
      rw [put, hheld]
      exact RobustMutex.Sound.held
  | release i =>
    obtain ⟨block, hget, rfl⟩ := Option.map_eq_some_iff.mp hs
    have hsame := h.release hget
    refine ⟨h.agrees.put hget (.inl hsame), ?_⟩
    rw [put, hsame]
    exact h.sound

theorem Inv.init (handles : List SharedMemoryBlock) : (WholeSys.init handles).Inv := by
  refine ⟨?_, RobustMutex.Sound.free⟩
  intro i block hget
  obtain ⟨block₀, -, rfl⟩ := List.mem_map.mp (List.mem_of_getElem? hget)
  constructor
  · intro hnote
    cases hnote
  · intro hmine
    cases hmine

/-! ## Runs -/

theorem Inv.faithful_iff :
    ∀ (calls : List WholeCall) (s s' : WholeSys), s.Inv →
      runGuarded WholeSys.step (fun _ _ => true) s calls = some s' →
      (s.Faithful calls ↔ ∀ i, .release i ∉ calls) := by
  intro calls
  induction calls with
  | nil =>
    intro s s' hinv _
    exact ⟨fun _ i => List.not_mem_nil, fun _ => ⟨hinv.agrees, hinv.agrees.exclusive⟩⟩
  | cons call calls ih =>
    intro s s' hinv hrun
    rw [runGuarded, if_pos rfl] at hrun
    obtain ⟨s₁, hs₁, hrest⟩ := Option.bind_eq_some_iff.mp hrun
    have htail := ih s₁ s' (hinv.step hs₁) hrest
    constructor
    · rintro ⟨-, hcall, hfaithful⟩ i hmem
      rcases List.mem_cons.mp hmem with rfl | hlater
      · -- the handle is there, since the call was made
        obtain ⟨block, hget, -⟩ := Option.map_eq_some_iff.mp hs₁
        exact not_givesBack i block s.mutex (hcall block hget)
      · exact htail.mp (hfaithful s₁ hs₁) i hlater
    · intro hnone
      refine ⟨⟨hinv.agrees, hinv.agrees.exclusive⟩, ?_, ?_⟩
      · cases call with
        | acquire i errno => trivial
        | release i => exact absurd List.mem_cons_self (hnone i)
      · intro s₂ hs₂
        rw [hs₁] at hs₂
        obtain rfl := Option.some.inj hs₂
        exact htail.mpr fun i hmem => hnone i (List.mem_cons_of_mem _ hmem)

/-- **Exactly the runs without a release are faithful.** The note and the mutex agree in every state of
every run; it is the release that does not do its work, whoever calls it. -/
theorem faithful_iff_no_release (handles : List SharedMemoryBlock) (calls : List WholeCall)
    {s : WholeSys} (hrun : runGuarded step (fun _ _ => true) (init handles) calls = some s) :
    (s.Agrees ∧ s.Exclusive) ∧ ((init handles).Faithful calls ↔ ∀ i, .release i ∉ calls) := by
  have hinv : s.Inv := by
    refine (Reach.of_runGuarded (G := fun _ _ => True) (fun _ _ _ => trivial) hrun).invariant
      (Inv.init handles) ?_
    intro s a s' h _ hs
    exact h.step hs
  exact ⟨⟨hinv.agrees, hinv.agrees.exclusive⟩,
    Inv.faithful_iff calls (init handles) s (Inv.init handles) hrun⟩

/-- Two handles of one block. -/
def twoHandles : List SharedMemoryBlock :=
  [⟨1, 4096, 0x8000, 0x10000, false, .readWrite, ⟨3, 0⟩⟩,
    ⟨2, 4096, 0x8000, 0x10000, false, .readWrite, ⟨3, 0⟩⟩]

theorem faithful_acquired :
    ∃ s, runGuarded step (fun _ _ => true) (init twoHandles) [.acquire 0 (.other 0)] = some s ∧
      s.mutex = .held 0 ∧ (init twoHandles).Faithful [.acquire 0 (.other 0)] := by
  refine ⟨_, rfl, rfl, ?_⟩
  refine (faithful_iff_no_release twoHandles [.acquire 0 (.other 0)] rfl).2.mpr ?_
  intro i hmem
  cases List.mem_singleton.mp hmem

/-- The owner is refused and the block stays locked; the other handle, which has nothing, is told that
it has released it. -/
theorem release_serves_the_wrong_one :
    (∃ s block block', runGuarded step (fun _ _ => true) (init twoHandles)
        [.acquire 0 (.other 0)] = some s ∧
      s.handles[0]? = some block ∧ s.handles[1]? = some block' ∧
      releaseMemoryBlockWhole 0 block s.mutex = (.errNotLocked, block, .held 0) ∧
      releaseMemoryBlockWhole 1 block' s.mutex = (.success, block', .held 0)) ∧
    ¬ (init twoHandles).Faithful [.acquire 0 (.other 0), .release 0] := by
  refine ⟨⟨_, _, _, rfl, rfl, rfl, rfl, rfl⟩, ?_⟩
  rintro ⟨-, -, hrest⟩
  obtain ⟨-, hcall, -⟩ := hrest _ rfl
  exact not_givesBack _ _ _ (hcall _ rfl)

end WholeSys

end Ipm
