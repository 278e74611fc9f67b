import Ipm.Memory.FailedGrow
import Ipm.Memory.Lifetime

/-!
# The access mode of a handle

A handle is given its mode when it is created or opened, and `ipm_memory_change_access` is the call that
gives it another. But every remapping writes the field: to the mode it has mapped with, or to 0 when it
could not map. 0 is `IPM_ACCESS_MODE_READ_ONLY`, and the next call reads it back as the mode to map with.

Beside each handle is kept the mode it was `granted`. The two agree for as long as no remapping of a
handle that may write fails.
-/

set_option autoImplicit false

namespace Ipm

open Lib

/-- A handle of a process, and the mode given to its `ipm_memory_create` or `ipm_memory_open`, or to the
last `ipm_memory_change_access` that returned `IPM_RESULT_SUCCESS`. -/
structure AccessHandle where
  pid : Nat
  memory : Memory
  granted : AccessMode

structure AccessSys where
  kernel : Kernel
  procs : Nat → Proc
  handles : List AccessHandle

inductive AccessEvent where
  | create (pid : Nat) (ctx : Context) (os : CreateOs) (blockSize : UInt64) (blockName : BlockName)
      (access : AccessMode)
  | open (pid : Nat) (ctx : Context) (os : OpenOs) (blockName : BlockName) (access : AccessMode)
  /-- Handle `i` is used to sync, grow or change access. -/
  | remap (i : Nat) (call : RemapCall) (env : RemapEnv)
  | claimRegion (i : Nat) (lock : IpmResult) (access : AccessMode) (offset count : UInt64)
      (waits : List Wait)

/-- The mode a handle has been granted after a call that returned `res`. -/
def RemapCall.grants (granted : AccessMode) (res : IpmResult) : RemapCall → AccessMode
  | changeAccess access => if res = .success then access else granted
  | _ => granted

/-! ## The mode a handle starts with -/

section Start

variable {b : Build} {ctx : Context} {os : Os} {w : World} {n : BlockName} {id size : UInt64}
variable {access : AccessMode}

theorem sharedMemoryBlockCreate_access_post :
    Prog.Post (sharedMemoryBlockCreate b ctx os n id size access) w
      (fun block _ => block.accessMode = access) (fun _ _ => True) fun _ _ => True := by
  refine Prog.Post.last fun _ w1 => Prog.Post.last fun _ w2 => Prog.Post.last fun file w3 => ?_
  refine Prog.Post.last fun _ w4 => Prog.Post.last fun memory w5 => Prog.Post.last fun header w6 => ?_
  refine Prog.Post.last fun _ w7 => Prog.Post.last fun _ w8 => Prog.Post.last fun _ w9 => ?_
  refine Prog.Post.last fun _ w10 => Prog.Post.last fun _ w11 => Prog.Post.last fun accessId w12 => ?_
  exact Prog.Post.last fun _ w13 => Prog.Post.pure rfl

theorem sharedMemoryBlockOpen_access_post :
    Prog.Post (sharedMemoryBlockOpen ctx os n id access) w
      (fun block _ => block.accessMode = access) (fun _ _ => True) fun _ _ => True := by
  refine Prog.Post.last fun file w1 => Prog.Post.last fun header w2 => Prog.Post.last fun size w3 => ?_
  refine Prog.Post.last fun memory w4 => Prog.Post.last fun _ w5 => Prog.Post.last fun _ w6 => ?_
  refine Prog.Post.last fun _ w7 => Prog.Post.last fun _ w8 => Prog.Post.last fun accessId w9 => ?_
  exact Prog.Post.pure rfl

/-- What a rollback does is no concern of the ones that return. -/
theorem onError_access_post {α : Type} {p : Call α} {Q : α → World → Prop} (c : Call Unit)
    (h : Prog.Post p w Q (fun _ _ => True) fun _ _ => True) :
    Prog.Post (p.onError c) w Q (fun _ _ => True) fun _ _ => True :=
  h.onError fun _ _ _ => ⟨fun _ => trivial, fun _ => trivial, fun _ => trivial⟩

theorem ipmMemoryCreate_access_post {os : CreateOs} :
    Prog.Post (ipmMemoryCreate b ctx os size n access) w
      (fun memory _ => memory.realMemory.accessMode = access) (fun _ _ => True) fun _ _ => True := by
  refine Prog.Post.last fun claims w1 => Prog.Post.last fun _ w2 => ?_
  refine (onError_access_post _ (onError_access_post _ sharedMemoryBlockCreate_access_post)).bind
    fun real w3 h3 => ?_
  exact Prog.Post.pure h3

theorem ipmMemoryOpen_access_post {os : OpenOs} :
    Prog.Post (ipmMemoryOpen b ctx os n access) w
      (fun memory _ => memory.realMemory.accessMode = access) (fun _ _ => True) fun _ _ => True := by
  have hreal : Prog.Post (openReal ctx os.alloc os.real n access) w
      (fun block _ => block.accessMode = access) (fun _ _ => True) fun _ _ => True :=
    Prog.Post.last fun _ w1 => onError_access_post _ sharedMemoryBlockOpen_access_post
  exact hreal.bind fun real w1 h1 => Prog.Post.last fun claims w2 => Prog.Post.pure h1

end Start

/-! ## Runs of whole calls -/

namespace AccessSys

/-- After a call of process `pid`; a process that is stopped takes its handles with it. -/
def ended {α : Type} (s : AccessSys) (pid : Nat) (next : α → List AccessHandle) :
    Outcome World (Except IpmResult α) → AccessSys
  | .ret (.ok a) w => ⟨w.kernel, Function.update s.procs pid w.proc, next a⟩
  | .ret (.error _) w => ⟨w.kernel, Function.update s.procs pid w.proc, s.handles⟩
  | .stop _ w => ⟨w.kernel, s.procs, s.handles.filter fun h => decide (h.pid ≠ pid)⟩

/-- The list of a claims object after a claim. -/
def listAfter (list : ClaimList) (trace : CallTrace) : ClaimList :=
  (trace.edits.getLast?.map Prod.snd).getD list

def step (b : Build) (s : AccessSys) : AccessEvent → Option AccessSys
  | .create pid ctx os blockSize blockName access =>
    some (s.ended pid (fun memory => s.handles ++ [⟨pid, memory, access⟩])
      (ipmMemoryCreate b ctx os blockSize blockName access ⟨s.kernel, s.procs pid⟩))
  | .open pid ctx os blockName access =>
    some (s.ended pid (fun memory => s.handles ++ [⟨pid, memory, access⟩])
      (ipmMemoryOpen b ctx os blockName access ⟨s.kernel, s.procs pid⟩))
  | .remap i call e =>
    (s.handles[i]?).map fun h =>
      s.ended h.pid (fun r => s.handles.set i
          { h with memory := r.memory, granted := call.grants h.granted r.res })
        (call.run b e h.memory ⟨s.kernel, s.procs h.pid⟩)
  | .claimRegion i lock access offset count waits =>
    (s.handles[i]?).map fun h =>
      let obj := h.memory.activeClaims.obj
      let list := (s.kernel.objs obj).list
      let trace := ipmMemoryClaimRegion b h.memory.handle lock access offset count list waits
      { s with
        kernel := s.kernel.modifyObj obj fun o => { o with list := listAfter list trace }
        handles := match trace.ending with
          | .stopped _ => s.handles.filter fun g => decide (g.pid ≠ h.pid)
          | _ => s.handles }

/-- `block_size` in the header of a handle's block. -/
def blockSize (s : AccessSys) (h : AccessHandle) : UInt64 :=
  (s.kernel.header h.memory.realMemory.obj).blockSize

/-- No handle that may write loses its mapping. -/
def KeepsWriters (b : Build) (s : AccessSys) : AccessEvent → Prop
  | .remap i call e => ∀ h ∈ s.handles[i]?, h.memory.realMemory.accessMode = .readWrite →
      call.Reaches b e (s.blockSize h) h.memory.realMemory →
      h.memory.realMemory.UpToDate (call.target (s.blockSize h)) (call.mode h.memory.realMemory) ∨
        mmapFails e.os.bodyMmap (call.target (s.blockSize h)) = false
  | _ => True

instance (b : Build) (s : AccessSys) : (a : AccessEvent) → Decidable (s.KeepsWriters b a)
  | .remap i _ _ => inferInstanceAs (Decidable (∀ h ∈ s.handles[i]?, _))
  | .create _ _ _ _ _ _ => inferInstanceAs (Decidable True)
  | .open _ _ _ _ _ => inferInstanceAs (Decidable True)
  | .claimRegion _ _ _ _ _ _ => inferInstanceAs (Decidable True)

/-- A handle has the mode it was granted. Then a sync that succeeds leaves it so, and whoever was granted
to write is not refused it. -/
structure ModeKept (h : AccessHandle) : Prop where
  mode : h.memory.realMemory.accessMode = h.granted
  synced : ∀ (b : Build) (e : RemapEnv) (w w' : World) (r : Remapped),
    RemapCall.sync.run b e h.memory w = .ret (.ok r) w' → r.res = .success →
    r.asked = some h.granted ∧ r.memory.realMemory.accessMode = h.granted
  claims : h.granted = .readWrite → ∀ access offset count,
    claimRegionCheck h.memory.handle access offset count ≠ some .errBadAccess

variable {b : Build} {s s' : AccessSys} {a : AccessEvent} {h : AccessHandle}

/-- The rest is the mode. -/
theorem modeKept_iff : ModeKept h ↔ h.memory.realMemory.accessMode = h.granted := by
  refine ⟨fun hkept => hkept.mode, fun hmode => ⟨hmode, ?_, ?_⟩⟩
  · intro b e w w' r hrun hres
    have hran := (RemapCall.sync.run_post (E := fun _ _ => True)).of_ret hrun
    cases hran with
    | short hshort _ => exact absurd trivial hshort
    | reached _ _ _ _ hupdated =>
      refine ⟨congrArg some hmode, ?_⟩
      cases hupdated with
      | kept _ => exact hmode
      | lost _ _ _ => cases hres
      | moved _ _ => exact hmode
  · intro hwrite access offset count hbad
    have hnot : ¬ (h.memory.handle.accessMode = .readOnly ∧ access = .readWrite) := by
      rintro ⟨hread, -⟩
      have hboth : AccessMode.readOnly = .readWrite := hread.symm.trans (hmode.trans hwrite)
      cases hboth
    rw [claimRegionCheck, if_neg hnot] at hbad
    split_ifs at hbad
    cases Option.some.inj hbad

/-- The handles keep their modes. -/
def Kept (s : AccessSys) : Prop := ∀ h ∈ s.handles, ModeKept h

/-! ## One call -/

/-- How a call that has ended left the handles. -/
theorem ended_cases {α : Type} (s : AccessSys) (pid : Nat) (next : α → List AccessHandle)
    (o : Outcome World (Except IpmResult α)) :
    (∃ a w, o = .ret (.ok a) w ∧ (s.ended pid next o).handles = next a) ∨
    (s.ended pid next o).handles = s.handles ∨
    (s.ended pid next o).handles = s.handles.filter fun h => decide (h.pid ≠ pid) := by
  cases o with
  | ret r w =>
    cases r with
    | ok a => exact .inl ⟨a, w, rfl, rfl⟩
    | error e => exact .inr (.inl rfl)
  | stop why w => exact .inr (.inr rfl)

/-- A handle more, or fewer. -/
theorem Kept.ended {α : Type} {pid : Nat} {next : α → List AccessHandle}
    {o : Outcome World (Except IpmResult α)} (hs : s.Kept)
    (hnext : ∀ a w, o = .ret (.ok a) w → ∀ h ∈ next a, ModeKept h) : (s.ended pid next o).Kept := by
  intro h hh
  rcases ended_cases s pid next o with ⟨a, w, ho, heq⟩ | heq | heq
  · rw [heq] at hh
    exact hnext a w ho h hh
  · rw [heq] at hh
    exact hs h hh
  · rw [heq] at hh
    exact hs h (List.mem_of_mem_filter hh)

theorem Kept.append {pid : Nat} {memory : Memory} {access : AccessMode} (hs : s.Kept)
    (hmode : memory.realMemory.accessMode = access) :
    ∀ h ∈ s.handles ++ [⟨pid, memory, access⟩], ModeKept h := by
  intro h hh
  rcases List.mem_append.mp hh with hold | hnew
  · exact hs h hold
  · rw [List.mem_singleton.mp hnew]
    exact modeKept_iff.mpr hmode

/-- **What a remapping does to the mode.** The handle has the mode it is granted then, except when it was
granted to write and its mapping was lost. -/
theorem grants_iff {call : RemapCall} {e : RemapEnv} {w w' : World} {r : Remapped}
    (hmode : h.memory.realMemory.accessMode = h.granted)
    (hran : Ran b e h.memory call w r w') :
    r.memory.realMemory.accessMode = call.grants h.granted r.res ↔
      (h.memory.realMemory.accessMode = .readWrite →
        call.Reaches b e (w.kernel.header h.memory.realMemory.obj).blockSize h.memory.realMemory →
        h.memory.realMemory.UpToDate (call.target (w.kernel.header h.memory.realMemory.obj).blockSize)
            (call.mode h.memory.realMemory) ∨
          mmapFails e.os.bodyMmap
            (call.target (w.kernel.header h.memory.realMemory.obj).blockSize) = false) := by
  cases hran with
  | @short res w' hshort _ =>
    refine ⟨fun _ _ hreach => absurd hreach hshort, fun _ => ?_⟩
    cases call with
    | sync => exact hmode
    | changeAccess access => exact absurd trivial hshort
    | resizeGrow newSize => exact hmode
  | @reached res real p w' hreach _ _ _ hupdated =>
    cases hupdated with
    | kept hup =>
      refine ⟨fun _ _ _ => .inl hup, fun _ => ?_⟩
      cases call with
      | sync => exact hmode
      | changeAccess access => exact hup.2.1.symm
      | resizeGrow newSize => exact hmode
    | moved hnew hmaps =>
      refine ⟨fun _ _ _ => .inr hmaps, fun _ => ?_⟩
      cases call with
      | sync => exact hmode
      | changeAccess access => rfl
      | resizeGrow newSize => exact hmode
    | lost hold hfails _ =>
      -- the mode is `IPM_ACCESS_MODE_READ_ONLY` now, and nothing else has been granted
      have hgrants : call.grants h.granted .errOsOutOfMemory = h.memory.realMemory.accessMode := by
        rw [hmode]
        cases call with
        | sync => rfl
        | changeAccess access =>
          show (if IpmResult.errOsOutOfMemory = .success then access else h.granted) = h.granted
          exact if_neg (by decide)
        | resizeGrow newSize => rfl
      show AccessMode.readOnly = call.grants h.granted .errOsOutOfMemory ↔ _
      rw [hgrants]
      constructor
      · intro hread hwrite
        rw [hwrite] at hread
        cases hread
      · intro hkeeps
        cases haccess : h.memory.realMemory.accessMode with
        | readOnly => rfl
        | readWrite =>
          rcases hkeeps haccess hreach with hup | hmaps
          · exact absurd hup hold
          · rw [hfails] at hmaps
            cases hmaps

theorem Kept.step (hs : s.Kept) (hkeeps : s.KeepsWriters b a)
    (hstep : AccessSys.step b s a = some s') : s'.Kept := by
  cases a with
  | create pid ctx os blockSize blockName access =>
    obtain rfl := Option.some.inj hstep
    apply hs.ended
    intro memory w ho
    exact hs.append (ipmMemoryCreate_access_post.of_ret ho)
  | «open» pid ctx os blockName access =>
    obtain rfl := Option.some.inj hstep
    apply hs.ended
    intro memory w ho
    exact hs.append (ipmMemoryOpen_access_post.of_ret ho)
  | remap i call e =>
    obtain ⟨h, hget, rfl⟩ := Option.map_eq_some_iff.mp hstep
    apply hs.ended
    intro r w ho
    have hmode := (hs h (List.mem_of_getElem? hget)).mode
    have hran := (call.run_post (E := fun _ _ => True)).of_ret ho
    refine forall_mem_set hs (fun _ _ hg => hg) (modeKept_iff.mpr ?_)
    exact (grants_iff hmode hran).mpr (hkeeps h hget)
  | claimRegion i lock access offset count waits =>
    obtain ⟨h, hget, rfl⟩ := Option.map_eq_some_iff.mp hstep
    intro g hg
    dsimp only at hg
    split at hg
    · exact hs g (List.mem_of_mem_filter hg)
    · exact hs g hg

/-- A call that keeps the modes has not lost the mapping of a writer. -/
theorem keepsWriters_of_kept (hs : s.Kept) (hstep : AccessSys.step b s a = some s')
    (hlive : s.handles.length ≤ s'.handles.length) (hkept : s'.Kept) : s.KeepsWriters b a := by
  cases a with
  | create pid ctx os blockSize blockName access => trivial
  | «open» pid ctx os blockName access => trivial
  | claimRegion i lock access offset count waits => trivial
  | remap i call e =>
    intro h hget
    obtain ⟨g, hg, rfl⟩ := Option.map_eq_some_iff.mp hstep
    obtain rfl := Option.some.inj (hg.symm.trans hget)
    have hmem := List.mem_of_getElem? hget
    have hpost : Prog.Post (call.run b e g.memory) ⟨s.kernel, s.procs g.pid⟩ _
        (fun _ _ => False) _ := call.run_post
    cases hrun : call.run b e g.memory ⟨s.kernel, s.procs g.pid⟩ with
    | ret res w =>
      cases res with
      | ok r =>
        rw [hrun] at hkept
        have hlt := (List.getElem?_eq_some_iff.mp hget).1
        have hnew := (hkept _ (List.mem_of_getElem? (List.getElem?_set_self hlt))).mode
        exact (grants_iff (hs g hmem).mode (hpost.of_ret hrun)).mp hnew
      | error res => exact (hpost.of_error hrun).elim
    | stop why w =>
      -- the process is gone, and its handle with it
      rw [hrun] at hlive
      have hfewer : (s.handles.filter fun h => decide (h.pid ≠ g.pid)).length < s.handles.length :=
        List.length_filter_lt_length_iff_exists.mpr ⟨g, hmem, by simp⟩
      exact absurd hlive (Nat.not_le.mpr hfewer)

/-! ## Runs -/

/-- Before anything is created or opened. -/
def init (kernel : Kernel) (procs : Nat → Proc) : AccessSys := ⟨kernel, procs, []⟩

/-- **Only a change of access changes access**, in every state of a run in which no remapping of a handle
that may write fails; and the first call that fails so, and whose process goes on, leaves a handle without
its mode. -/
theorem kept_of_keepsWriters {kernel : Kernel} {procs : Nat → Proc}
    (hr : Reach (AccessSys.step b) (KeepsWriters b) (init kernel procs) s) :
    s.Kept ∧ ∀ a s', AccessSys.step b s a = some s' → s.handles.length ≤ s'.handles.length →
      (s'.Kept ↔ s.KeepsWriters b a) := by
  have hkept : s.Kept := by
    refine hr.invariant (I := Kept) ?_ fun _ _ _ hs hkeeps hstep => hs.step hkeeps hstep
    intro h hh
    cases hh
  refine ⟨hkept, fun a s' hstep hlive => ⟨keepsWriters_of_kept hkept hstep hlive, ?_⟩⟩
  intro hkeeps
  exact hkept.step hkeeps hstep

/-- One process creates a block to write to it, and another opens it and grows it. -/
def grownElsewhere : List AccessEvent :=
  [.create 0 ⟨fun e => e⟩ LifeSys.createWilling 4096 .a .readWrite,
   .open 1 ⟨fun e => e⟩ LifeSys.openWilling .a .readWrite,
   .remap 1 (.resizeGrow 8192) .willing]

/-- It syncs, and may still write. -/
theorem kept_synced :
    ∃ s, Reach (AccessSys.step ⟨false⟩) (KeepsWriters ⟨false⟩) (init .empty fun _ => .initial) s ∧
      s.handles.map (·.memory.realMemory.accessMode) = [.readWrite, .readWrite] ∧ s.Kept ∧
      ∀ a s', AccessSys.step ⟨false⟩ s a = some s' → s.handles.length ≤ s'.handles.length →
        (s'.Kept ↔ s.KeepsWriters ⟨false⟩ a) := by
  have htrace : ∃ s, Reach (AccessSys.step ⟨false⟩) (KeepsWriters ⟨false⟩)
      (init .empty fun _ => .initial) s ∧
      s.handles.map (·.memory.realMemory.accessMode) = [.readWrite, .readWrite] :=
    exists_reach_of_trace (g := fun s a => decide (s.KeepsWriters ⟨false⟩ a))
      (t := fun s => decide (s.handles.map (·.memory.realMemory.accessMode) =
        [.readWrite, .readWrite])) (grownElsewhere ++ [.remap 0 .sync .willing])
      (fun _ _ h => of_decide_eq_true h) (fun _ h => of_decide_eq_true h) (by decide +kernel)
  obtain ⟨s, hr, hmodes⟩ := htrace
  exact ⟨s, hr, hmodes, kept_of_keepsWriters hr⟩

/-! ## Where it goes wrong -/

/-- The first handle was granted to write, and is refused it. -/
def refusedToWrite (s : AccessSys) : Bool :=
  (s.handles[0]?).any fun h => decide (h.granted = .readWrite ∧
    claimRegionCheck h.memory.handle .readWrite 0 16 = some .errBadAccess)

theorem not_kept_of_refusedToWrite (h : s.refusedToWrite = true) :
    (∃ g ∈ s.handles, g.granted = .readWrite ∧
      claimRegionCheck g.memory.handle .readWrite 0 16 = some .errBadAccess) ∧ ¬ s.Kept := by
  obtain ⟨g, hget, htest⟩ := (Option.any_eq_true _ _).mp h
  obtain ⟨hgranted, hbad⟩ := of_decide_eq_true htest
  have hmem := List.mem_of_getElem? hget
  refine ⟨⟨g, hmem, hgranted, hbad⟩, ?_⟩
  intro hkept
  exact (hkept g hmem).claims hgranted _ _ _ hbad

/-- A sync that finds no memory, and one that does: the handle is mapped again, to read. -/
theorem sync_again_not_kept :
    ∃ s, Reach (AccessSys.step ⟨false⟩) (fun _ _ => True) (init .empty fun _ => .initial) s ∧
      (∃ g ∈ s.handles, g.granted = .readWrite ∧
        claimRegionCheck g.memory.handle .readWrite 0 16 = some .errBadAccess) ∧ ¬ s.Kept :=
  exists_reach_of_trace (g := fun _ _ => true) (t := refusedToWrite)
    (grownElsewhere ++ [.remap 0 .sync .full, .remap 0 .sync .willing]) (fun _ _ _ => trivial)
    (fun _ h => not_kept_of_refusedToWrite h) (by decide +kernel)

end AccessSys

end Ipm
