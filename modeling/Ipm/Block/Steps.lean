import Ipm.Block.Spec
import Ipm.Lib.Reach
import Ipm.Lib.Threads

/-!
# `shared_memory.c`, one access to shared state at a time

Threads that create, open and close the object of one name and id. A `Point` is where a thread
stands between two of its accesses to the namespace or to the header, with the locals it has by
then, and `advance` is the next access. The pieces are those `shared_memory_block_create`,
`shared_memory_block_open` and `shared_memory_block_close` are made of, so a thread on its own is the
function (`finish_create`, `finish_open`, `finish_close`).
-/

set_option autoImplicit false

namespace Ipm

open Lib

/-- The locals of a call. -/
structure Locals where
  size : UInt64
  access : AccessMode
  file : File
  header : Nat
  memory : Nat
  deriving DecidableEq, Repr

def Locals.block (l : Locals) (accessId : UInt64) : SharedMemoryBlock :=
  { accessId := accessId, size := l.size, header := l.header, memory := l.memory,
    hasOwnership := false, accessMode := l.access, memFd := l.file }

inductive Point where
  -- `shared_memory_block_create`
  | create (size : UInt64) (access : AccessMode)
  | truncate (l : Locals)
  | mapBody (l : Locals)
  | mapHeader (l : Locals)
  | writeId (l : Locals)
  | writeSize (l : Locals)
  | writeCounter (l : Locals)
  | initMutex (l : Locals)
  | writeName (l : Locals)
  | takeFirstId (l : Locals)
  | publish (l : Locals) (accessId : UInt64)
  -- `shared_memory_block_open`
  | lookup (access : AccessMode)
  | openHeader (l : Locals)
  | readSize (l : Locals)
  | openBody (l : Locals)
  | await (l : Locals)
  | checkId (l : Locals)
  | checkName (l : Locals)
  | retain (l : Locals)
  | takeId (l : Locals)
  /-- Returned with `IPM_RESULT_SUCCESS`; the next step begins to close. -/
  | held (block : SharedMemoryBlock)
  -- `shared_memory_block_close`
  | destroy (block : SharedMemoryBlock)
  | unlink (block : SharedMemoryBlock)
  | unmap (block : SharedMemoryBlock)
  /-- The lookup of an open failed. -/
  | missed (res : IpmResult)
  | failed (res : IpmResult)
  | closed (res : Except IpmResult Unit)
  /-- The process was stopped here. -/
  | stopped (before : Point)

/-- The next access of a thread that works on the block `(n, id)`. -/
def Point.advance (b : Build) (ctx : Context) (os : Os) (n : BlockName) (id : UInt64) :
    Point → Call Point
  | .create size access =>
    Prog.settle
      (do
        Prog.assert b ((size &&& memoryPageSizeMask) == 0)
        Prog.assert b (decide (size > 0))
        createOpen ctx os (makeBlockNameBasedOnId n.chars id))
      (fun file => .truncate ⟨size, access, file, 0, 0⟩) .failed
  | .truncate l =>
    (createTruncate ctx os (makeBlockNameBasedOnId n.chars id) l.file l.size).settle
      (fun _ => .mapBody l) .failed
  | .mapBody l =>
    (createMapBody ctx os (makeBlockNameBasedOnId n.chars id) l.file l.size l.access).settle
      (fun memory => .mapHeader { l with memory := memory }) .failed
  | .mapHeader l =>
    (Ipm.mapHeader os l.file).settle (fun header => .writeId { l with header := header }) .failed
  | .writeId l =>
    (setHeader l.file.obj fun h => { h with blockId := id }).settle (fun _ => .writeSize l) .failed
  | .writeSize l =>
    (setHeader l.file.obj fun h => { h with blockSize := l.size }).settle
      (fun _ => .writeCounter l) .failed
  | .writeCounter l =>
    (setHeader l.file.obj fun h => { h with idCounter := 1 }).settle (fun _ => .initMutex l) .failed
  | .initMutex l =>
    (createMutex ctx os (makeBlockNameBasedOnId n.chars id) l.file l.size l.header l.memory).settle
      (fun _ => .writeName l) .failed
  | .writeName l =>
    (setHeader l.file.obj fun h => { h with blockName := n.chars }).settle
      (fun _ => .takeFirstId l) .failed
  | .takeFirstId l => (takeAccessId l.file.obj).settle (fun accessId => .publish l accessId) .failed
  | .publish l accessId =>
    (setHeader l.file.obj fun h => { h with refcount := 1 }).settle
      (fun _ => .held (l.block accessId)) .failed
  | .lookup access =>
    (openLookup ctx os (makeBlockNameBasedOnId n.chars id)).settle
      (fun file => .openHeader ⟨0, access, file, 0, 0⟩) .missed
  | .openHeader l =>
    (Ipm.mapHeader os l.file).settle (fun header => .readSize { l with header := header }) .failed
  | .readSize l =>
    (Ipm.readSize l.file.obj).settle (fun size => .openBody { l with size := size }) .failed
  | .openBody l =>
    (openMapBody ctx os l.file l.header l.size l.access).settle
      (fun memory => .await { l with memory := memory }) .failed
  | .await l => (awaitRefcount l.file.obj).settle (fun _ => .checkId l) .failed
  | .checkId l =>
    (checkBlockId ctx os l.file l.size l.header l.memory id).settle (fun _ => .checkName l) .failed
  | .checkName l =>
    (checkBlockName ctx os l.file l.size l.header l.memory n.chars).settle
      (fun _ => .retain l) .failed
  | .retain l => (Ipm.retain l.file.obj).settle (fun _ => .takeId l) .failed
  | .takeId l =>
    (takeAccessId l.file.obj).settle (fun accessId => .held (l.block accessId)) .failed
  | .held block =>
    Prog.settle
      (do
        Prog.assert b (!block.hasOwnership)
        closeFd os block.memFd
        releaseRef block.obj)
      (fun refs => if refs = 1 then .destroy block else .unmap block) fun e => .closed (.error e)
  | .destroy block =>
    (destroyMutex block.obj).settle (fun _ => .unlink block) fun e => .closed (.error e)
  | .unlink block =>
    (unlinkBlock ctx os block).settle (fun _ => .closed (.ok ())) fun e => .closed (.error e)
  | .unmap block =>
    (unmapBlock os block).settle (fun _ => .closed (.ok ())) fun e => .closed (.error e)
  | .missed res => return .missed res
  | .failed res => return .failed res
  | .closed res => return .closed res
  | .stopped before => return .stopped before

/-! ## A thread on its own -/

namespace Point

/-- What a thread's create or open has returned. -/
def result : Point → Option (Except IpmResult SharedMemoryBlock)
  | held block => some (.ok block)
  | missed res => some (.error res)
  | failed res => some (.error res)
  | _ => none

/-- What a thread's close has returned. -/
def closeResult : Point → Option (Except IpmResult Unit)
  | closed res => some res
  | _ => none

variable {α β : Type} (b : Build) (ctx : Context) (os : Os) (n : BlockName) (id : UInt64)

/-- The steps of a call with nothing in between, until `f` says that it has returned. -/
def finish (f : Point → Option (Except IpmResult β)) :
    (fuel : Nat) → Point → Call (Option (Except IpmResult β))
  | 0, p => pure (f p)
  | fuel + 1, p => do
    let p ← p.advance b ctx os n id
    if (f p).isSome then return f p else finish f fuel p

/-- From `p` on, `fuel` steps of a thread are the body `q`. -/
def Finishes (f : Point → Option (Except IpmResult β)) (fuel : Nat) (p : Point) (q : Call β) : Prop :=
  finish b ctx os n id f fuel p = do return some (← q.attempt)

variable {b ctx os n id} {f : Point → Option (Except IpmResult β)} {p : Point} {fuel : Nat}
variable {q : Call α} {ok : α → Point} {err : IpmResult → Point}

/-- One step of a thread against one piece of its function. -/
theorem Finishes.step {k : α → Call β} (hp : p.advance b ctx os n id = q.settle ok err)
    (herr : ∀ e, f (err e) = some (.error e)) (hok : ∀ a, f (ok a) = none)
    (hk : ∀ a, Finishes b ctx os n id f fuel (ok a) (k a)) :
    Finishes b ctx os n id f (fuel + 1) p (q >>= k) := by
  rw [Finishes, finish, hp, Prog.settle_bind, Prog.attempt_bind, bind_assoc]
  refine bind_congr fun r => ?_
  cases r with
  | ok a =>
    simp only [hok, Option.isSome_none, Bool.false_eq_true, if_false]
    exact hk a
  | error e => simp [herr]

/-- The last step. -/
theorem Finishes.last {v : α → β} (hp : p.advance b ctx os n id = q.settle ok err)
    (herr : ∀ e, f (err e) = some (.error e)) (hok : ∀ a, f (ok a) = some (.ok (v a))) :
    Finishes b ctx os n id f (fuel + 1) p (q >>= fun a => pure (v a)) := by
  rw [Finishes, finish, hp, Prog.settle_bind, Prog.attempt_bind, bind_assoc]
  refine bind_congr fun r => ?_
  cases r with
  | ok a => simp [hok, Prog.attempt_pure]
  | error e => simp [herr]

/-- `shared_memory_block_create` is its thread on its own. -/
theorem finish_create (size : UInt64) (access : AccessMode) :
    Finishes b ctx os n id result 11 (.create size access)
      (sharedMemoryBlockCreate b ctx os n id size access) := by
  have hbody : sharedMemoryBlockCreate b ctx os n id size access =
      ((do
        Prog.assert b ((size &&& memoryPageSizeMask) == 0)
        Prog.assert b (decide (size > 0))
        createOpen ctx os (makeBlockNameBasedOnId n.chars id)) >>= fun file => do
      createTruncate ctx os (makeBlockNameBasedOnId n.chars id) file size
      let memory ← createMapBody ctx os (makeBlockNameBasedOnId n.chars id) file size access
      let header ← Ipm.mapHeader os file
      setHeader file.obj fun h => { h with blockId := id }
      setHeader file.obj fun h => { h with blockSize := size }
      setHeader file.obj fun h => { h with idCounter := 1 }
      createMutex ctx os (makeBlockNameBasedOnId n.chars id) file size header memory
      setHeader file.obj fun h => { h with blockName := n.chars }
      let accessId ← takeAccessId file.obj
      setHeader file.obj fun h => { h with refcount := 1 }
      return (Locals.mk size access file header memory).block accessId) := by
    simp only [sharedMemoryBlockCreate, bind_assoc, Locals.block]
  rw [hbody]
  refine .step (by rw [advance]) (fun _ => rfl) (fun _ => rfl) fun file => ?_
  refine .step (by rw [advance]) (fun _ => rfl) (fun _ => rfl) fun _ => ?_
  refine .step (by rw [advance]) (fun _ => rfl) (fun _ => rfl) fun memory => ?_
  refine .step (by rw [advance]) (fun _ => rfl) (fun _ => rfl) fun header => ?_
  refine .step (by rw [advance]) (fun _ => rfl) (fun _ => rfl) fun _ => ?_
  refine .step (by rw [advance]) (fun _ => rfl) (fun _ => rfl) fun _ => ?_
  refine .step (by rw [advance]) (fun _ => rfl) (fun _ => rfl) fun _ => ?_
  refine .step (by rw [advance]) (fun _ => rfl) (fun _ => rfl) fun _ => ?_
  refine .step (by rw [advance]) (fun _ => rfl) (fun _ => rfl) fun _ => ?_
  refine .step (by rw [advance]) (fun _ => rfl) (fun _ => rfl) fun accessId => ?_
  exact .last (by rw [advance]) (fun _ => rfl) fun _ => rfl

/-- `shared_memory_block_open` is its thread on its own. -/
theorem finish_open (access : AccessMode) :
    Finishes b ctx os n id result 9 (.lookup access)
      (sharedMemoryBlockOpen ctx os n id access) := by
  unfold sharedMemoryBlockOpen
  refine .step (by rw [advance]) (fun _ => rfl) (fun _ => rfl) fun file => ?_
  refine .step (by rw [advance]) (fun _ => rfl) (fun _ => rfl) fun header => ?_
  refine .step (by rw [advance]) (fun _ => rfl) (fun _ => rfl) fun size => ?_
  refine .step (by rw [advance]) (fun _ => rfl) (fun _ => rfl) fun memory => ?_
  refine .step (by rw [advance]) (fun _ => rfl) (fun _ => rfl) fun _ => ?_
  refine .step (by rw [advance]) (fun _ => rfl) (fun _ => rfl) fun _ => ?_
  refine .step (by rw [advance]) (fun _ => rfl) (fun _ => rfl) fun _ => ?_
  refine .step (by rw [advance]) (fun _ => rfl) (fun _ => rfl) fun _ => ?_
  exact .last (by rw [advance]) (fun _ => rfl) fun _ => rfl

/-- `shared_memory_block_close` without a callback is its thread on its own. -/
theorem finish_close (block : SharedMemoryBlock) :
    Finishes b ctx os n id closeResult 3 (.held block)
      (sharedMemoryBlockClose b ctx os block (pure ())) := by
  have hbody : sharedMemoryBlockClose b ctx os block (pure ()) =
      ((do
        Prog.assert b (!block.hasOwnership)
        closeFd os block.memFd
        releaseRef block.obj) >>= fun refs =>
      if refs = 1 then do
        destroyMutex block.obj
        unlinkBlock ctx os block >>= fun _ => pure ()
      else unmapBlock os block >>= fun _ => pure ()) := by
    have hpure : ∀ p : Call Unit, (p >>= fun _ => pure ()) = p := fun p => bind_pure p
    simp only [sharedMemoryBlockClose, bind_assoc, pure_bind, hpure]
  rw [hbody]
  refine .step (by rw [advance]) (fun _ => rfl) (fun refs => ?_) fun refs => ?_
  · split <;> rfl
  · split
    · refine .step (by rw [advance]) (fun _ => rfl) (fun _ => rfl) fun _ => ?_
      exact .last (by rw [advance]) (fun _ => rfl) fun _ => rfl
    · exact .last (by rw [advance]) (fun _ => rfl) fun _ => rfl

end Point

/-! ## Threads -/

/-- A thread that is counted in `refcount`. -/
def Point.counted : Point → Bool
  | takeId _ => true
  | held _ => true
  | stopped before => before.counted
  | _ => false

structure BlockSys where
  kernel : Kernel
  threads : List Point

/-- What the environment answers to one step. -/
structure BlockEnv where
  ctx : Context
  proc : Proc
  os : Os

/-- An environment in which every call succeeds. -/
def BlockEnv.willing : BlockEnv := ⟨⟨fun e => e⟩, .initial, .willing⟩

inductive BlockEvent where
  /-- Another thread starts to open the block. -/
  | open (access : AccessMode)
  /-- The next access of thread `i`. -/
  | step (i : Nat) (e : BlockEnv)

namespace BlockSys

def step (b : Build) (n : BlockName) (id : UInt64) (s : BlockSys) : BlockEvent → Option BlockSys
  | .open access => some { s with threads := s.threads ++ [.lookup access] }
  | .step i e =>
    (s.threads[i]?).bind fun p =>
      match p.advance b e.ctx e.os n id ⟨s.kernel, e.proc⟩ with
      | .ret (.ok p') w => some ⟨w.kernel, s.threads.set i p'⟩
      | .ret (.error _) _ => none
      -- still in the loop that waits for the reference count
      | .stop .spin _ => none
      | .stop _ w => some ⟨w.kernel, s.threads.set i (.stopped p)⟩

/-- **What a step of a thread can do**: it goes on, or it is stopped where it stands. -/
theorem step_thread {b : Build} {n : BlockName} {id : UInt64} {s s' : BlockSys} {i : Nat}
    {e : BlockEnv} (h : step b n id s (.step i e) = some s') :
    ∃ p, s.threads[i]? = some p ∧
      ((∃ p' w, p.advance b e.ctx e.os n id ⟨s.kernel, e.proc⟩ = .ret (.ok p') w ∧
          s' = ⟨w.kernel, s.threads.set i p'⟩) ∨
        ∃ why w, p.advance b e.ctx e.os n id ⟨s.kernel, e.proc⟩ = .stop why w ∧
          s' = ⟨w.kernel, s.threads.set i (.stopped p)⟩) := by
  obtain ⟨p, hget, hout⟩ := Option.bind_eq_some_iff.mp h
  refine ⟨p, hget, ?_⟩
  cases hadv : p.advance b e.ctx e.os n id ⟨s.kernel, e.proc⟩ with
  | ret r w =>
    rw [hadv] at hout
    cases r with
    | ok p' => exact .inl ⟨p', w, rfl, (Option.some.inj hout).symm⟩
    | error res => cases hout
  | stop why w =>
    rw [hadv] at hout
    cases why with
    | spin => cases hout
    | assertion => exact .inr ⟨_, w, rfl, (Option.some.inj hout).symm⟩
    | fault => exact .inr ⟨_, w, rfl, (Option.some.inj hout).symm⟩

/-- `count` steps of thread `i`. -/
def steps (i count : Nat) : List BlockEvent := List.replicate count (.step i .willing)

end BlockSys

end Ipm
