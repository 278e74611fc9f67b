import Ipm.Memory.Service
import Ipm.Memory.Stale

/-!
# All calls on one machine

`Memory/Host.lean` leaves out the calls that remap a handle: `ipm_memory_sync`,
`ipm_memory_change_access` and `ipm_memory_resize_grow`. With them the machine has every call of the
library.

A remapping changes what its handle sees of the block, and the size in one header. The lock service of
`Memory/Service.lean` has neither, so it does not notice (`service_of_run`). What is asked of the callers
is that a growth leaves room for the header page; without it the file is cut off with all that is in it.
-/

set_option autoImplicit false

namespace Ipm

open Lib

/-! ## What a remapping changes -/

/-- A handle that is the same handle, whatever it sees now. -/
structure Memory.SameHandle (memory after : Memory) : Prop where
  blockName : after.blockName = memory.blockName
  activeClaims : after.activeClaims = memory.activeClaims
  obj : after.realMemory.obj = memory.realMemory.obj
  accessId : after.realMemory.accessId = memory.realMemory.accessId
  hasOwnership : after.realMemory.hasOwnership = memory.realMemory.hasOwnership

/-- A kernel that is the same, but for the size of the block of one object. -/
structure Kernel.Resized (obj : Nat) (k k' : Kernel) : Prop where
  names : k'.names = k.names
  fresh : k'.fresh = k.fresh
  others : ∀ i, i ≠ obj → k'.objs i = k.objs i
  header : ∃ size, k'.header obj = { k.header obj with blockSize := size }
  length : memoryPageSize.toNat ≤ (k.objs obj).length → memoryPageSize.toNat ≤ (k'.objs obj).length

/-- A growth that is not refused leaves room for the header page. -/
def LeavesRoom (memory : Memory) (call : RemapCall) : Prop :=
  ∀ newSize ∈ RemapSys.growth call, roundSize newSize < memory.realMemory.size ∨
    (roundSize newSize).toNat + memoryPageSize.toNat < 2 ^ 64

instance (memory : Memory) (call : RemapCall) : Decidable (LeavesRoom memory call) :=
  Option.decidableForallMem (RemapSys.growth call)

section Remapping

variable {b : Build} {e : RemapEnv} {memory after : Memory} {call : RemapCall} {w w' : World}
variable {k k' : Kernel} {n : BlockName} {kind : MemoryBlock} {H : RefCounts} {obj i : Nat}

theorem Memory.SameHandle.refl (memory : Memory) : memory.SameHandle memory := ⟨rfl, rfl, rfl, rfl, rfl⟩

theorem Ran.sameHandle {r : Remapped} (h : Ran b e memory call w r w') : memory.SameHandle r.memory := by
  cases h with
  | short _ _ => exact .refl memory
  | reached _ _ _ _ hupdated => cases hupdated <;> exact ⟨rfl, rfl, rfl, rfl, rfl⟩

theorem Touched.resized (h : Touched memory call k k') (hroom : LeavesRoom memory call) :
    k.Resized memory.realMemory.obj k' := by
  rcases h with rfl | ⟨newSize, rfl, hle, hgrown⟩
  · exact ⟨rfl, rfl, fun _ _ => rfl, ⟨_, rfl⟩, id⟩
  · have hlt := (hroom newSize rfl).resolve_left hle
    have hpage : memoryPageSize.toNat ≤ (memoryPageSize + roundSize newSize).toNat := by
      rw [UInt64.toNat_add, Nat.add_comm, Nat.mod_eq_of_lt hlt]
      exact Nat.le_add_left _ _
    obtain rfl := hgrown.resolve_left (Nat.not_lt.mpr hpage)
    refine ⟨rfl, rfl, fun i hi => Kernel.objs_modifyObj_ne _ _ hi, ⟨roundSize newSize, ?_⟩, fun _ => ?_⟩
    · rw [Kernel.header, Kernel.objs_modifyObj_self, ShmObject.grown, ShmObject.resize_of_le _ hpage]
      rfl
    · rw [Kernel.objs_modifyObj_self]
      exact hpage.trans_eq (ShmObject.length_resize _ _).symm

theorem Kernel.Resized.idCounter (h : k.Resized obj k') (i : Nat) :
    (k'.header i).idCounter = (k.header i).idCounter := by
  by_cases hi : i = obj
  · obtain ⟨size, hsize⟩ := h.header
    rw [hi, hsize]
  · rw [Kernel.header, h.others i hi]
    rfl

theorem Counted.resized (h : Counted k H) (hres : k.Resized obj k') : Counted k' H where
  known := by rw [hres.names]; exact h.known
  linked_iff := by rw [hres.names]; exact h.linked_iff
  object := by
    intro n kind i hl
    rw [hres.names] at hl
    obtain ⟨hlt, hrecord⟩ := h.object n kind i hl
    refine ⟨hres.fresh ▸ hlt, ?_⟩
    by_cases hi : i = obj
    · obtain ⟨size, hsize⟩ := hres.header
      have hheader : (k'.objs i).header = { (k.objs i).header with blockSize := size } := hi ▸ hsize
      refine ⟨hi ▸ hres.length (hi ▸ hrecord.length), ?_, ?_, ?_⟩ <;> rw [hheader]
      · exact hrecord.blockId
      · exact hrecord.blockName
      · exact hrecord.refcount
    · rw [hres.others i hi]
      exact hrecord

theorem Memory.LinkedAt.resized (h : memory.LinkedAt n k) (hsame : memory.SameHandle after)
    (hres : k.Resized obj k') : after.LinkedAt n k' := by
  refine ⟨hsame.blockName.trans h.blockName, fun kind => ?_, fun kind => ?_⟩
  · rw [hres.names, h.names kind]
    cases kind with
    | realMemory => exact congrArg some hsame.obj.symm
    | activeClaims => exact congrArg (fun block : SharedMemoryBlock => some block.obj) hsame.activeClaims.symm
  · cases kind with
    | realMemory => exact hsame.hasOwnership.trans (h.hasOwnership .realMemory)
    | activeClaims =>
      exact (congrArg SharedMemoryBlock.hasOwnership hsame.activeClaims).trans (h.hasOwnership .activeClaims)

end Remapping

/-! ## The machine goes on -/

namespace HostSys

variable {b : Build} {s : HostSys} {k' : Kernel} {memory after : Memory} {i obj : Nat}
variable {σ : LockService BlockName UInt64 MemoryClaim} {n : BlockName}

/-- The machine with handle `i` remapped. -/
def withHandle (s : HostSys) (k : Kernel) (i : Nat) (memory : Memory) : HostSys :=
  { s with life := { s.life with kernel := k, handles := s.life.handles.set i memory } }

theorem live_withHandle (hget : s.life.handles[i]? = some memory) (hsame : memory.SameHandle after) :
    (s.withHandle k' i after).life.counts = s.life.counts := by
  funext n kind
  have hcount := countP_set_add (fun u : Memory => decide (u.blockName = n)) hget after
  rw [hsame.blockName] at hcount
  exact Nat.add_right_cancel hcount

theorem lifeOk_withHandle (h : s.life.LifeOk) (hget : s.life.handles[i]? = some memory)
    (hsame : memory.SameHandle after) (hres : s.life.kernel.Resized obj k') :
    (s.withHandle k' i after).life.LifeOk := by
  constructor
  · rw [live_withHandle hget hsame]
    exact h.counted.resized hres
  · refine forall_mem_set h.linked (fun u _ hu => hu.resized (.refl u) hres) ?_
    rw [hsame.blockName]
    exact (h.linked memory (List.mem_of_getElem? hget)).resized hsame hres

theorem idsOk_withHandle (h : s.life.IdsOk) (hget : s.life.handles[i]? = some memory)
    (hsame : memory.SameHandle after) (hres : s.life.kernel.Resized obj k') :
    (s.withHandle k' i after).life.IdsOk := by
  constructor
  · refine forall_mem_set h.below (fun u _ hu => ?_) ?_
    · show u.realMemory.accessId < (k'.header u.realMemory.obj).idCounter
      rw [hres.idCounter]
      exact hu
    · show after.realMemory.accessId < (k'.header after.realMemory.obj).idCounter
      rw [hres.idCounter, hsame.accessId, hsame.obj]
      exact h.below memory (List.mem_of_getElem? hget)
  · refine pairwise_set h.distinct hget (fun u hu => ?_) fun u hu => ?_ <;>
      rw [hsame.blockName, hsame.accessId] <;> exact hu

/-- A remapping leaves the lists alone: they are not in the real memories. -/
theorem claims_withHandle (h : s.life.LifeOk) (hget : s.life.handles[i]? = some memory)
    (hres : s.life.kernel.Resized memory.realMemory.obj k')
    (hl : s.life.kernel.names (objectPath n .activeClaims) = some obj) :
    (s.withHandle k' i after).claims obj = s.claims obj := by
  have hreal := (h.linked memory (List.mem_of_getElem? hget)).names .realMemory
  have hne : obj ≠ memory.realMemory.obj := by
    rintro rfl
    cases (h.counted.unique hl hreal).2
  show ({ s.claims obj with list := (k'.objs obj).list } : ClaimSys) = _
  rw [hres.others obj hne]
  rfl

theorem service_withHandle (h : s.life.LifeOk) (hget : s.life.handles[i]? = some memory)
    (hsame : memory.SameHandle after) (hres : s.life.kernel.Resized memory.realMemory.obj k') :
    (s.withHandle k' i after).service = s.service := by
  have hhandles : (s.withHandle k' i after).service.handles = s.service.handles := by
    show (s.life.handles.set i after).map _ = s.life.handles.map _
    have hmap : (s.life.handles.map fun u => (u.blockName, u.realMemory.accessId))[i]? =
        some (after.blockName, after.realMemory.accessId) := by
      rw [List.getElem?_map, hget, hsame.blockName, hsame.accessId]
      rfl
    rw [List.map_set, set_getElem?_self hmap]
  have htable : (s.withHandle k' i after).service.table = s.service.table := by
    funext n
    have hnames : (s.withHandle k' i after).life.kernel.names = s.life.kernel.names := hres.names
    cases hl : s.life.kernel.names (objectPath n .activeClaims) with
    | none => rw [table_none hl, table_none (hnames ▸ hl)]
    | some obj => rw [table_some hl, table_some (hnames ▸ hl), claims_withHandle h hget hres hl]
  exact congrArg₂ LockService.mk hhandles htable

theorem ServiceOk.withHandle (h : ServiceOk b σ s) (hget : s.life.handles[i]? = some memory)
    (hsame : memory.SameHandle after) (hres : s.life.kernel.Resized memory.realMemory.obj k') :
    ServiceOk b σ (s.withHandle k' i after) := by
  have hclaims : ∀ {n obj}, k'.names (objectPath n .activeClaims) = some obj →
      s.life.kernel.names (objectPath n .activeClaims) = some obj ∧
        (s.withHandle k' i after).claims obj = s.claims obj := by
    intro n obj hl
    rw [hres.names] at hl
    exact ⟨hl, claims_withHandle h.host.life hget hres hl⟩
  have hservice := service_withHandle h.host.life hget hsame hres
  refine ⟨⟨lifeOk_withHandle h.host.life hget hsame hres, idsOk_withHandle h.host.ids hget hsame hres,
    fun n obj hl => ?_, fun obj hle => ?_⟩, fun n obj hl c hc => ?_, h.origin, hservice ▸ h.reached⟩
  · obtain ⟨hl', heq⟩ := hclaims hl
    rw [heq]
    exact h.host.claims n obj hl'
  · exact h.host.unborn obj (hres.fresh ▸ hle)
  · obtain ⟨hl', heq⟩ := hclaims hl
    rw [heq] at hc
    rw [hservice]
    exact h.requests n obj hl' c hc

end HostSys

/-! ## Runs -/

inductive MachineEvent where
  | host (a : HostEvent)
  /-- A remapping call with handle `i`, by a process that is as `proc` says. -/
  | remap (i : Nat) (proc : Proc) (call : RemapCall) (env : RemapEnv)

namespace Machine

/-- A remapping call with handle `i`, which is `memory`, has ended. -/
def ended (s : HostSys) (i : Nat) (memory : Memory) :
    Outcome World (Except IpmResult Remapped) → HostSys
  | .ret (.ok r) w => s.withHandle w.kernel i r.memory
  | .ret (.error _) w => s.withHandle w.kernel i memory
  | .stop _ w => s.withHandle w.kernel i memory

def step (b : Build) (s : HostSys) : MachineEvent → Option HostSys
  | .host a => HostSys.step b s a
  | .remap i proc call env => (s.life.handles[i]?).map fun memory =>
      ended s i memory (call.run b env memory ⟨s.life.kernel, proc⟩)

/-- The callers' side of a run. -/
def Settling (b : Build) (s : HostSys) : MachineEvent → Prop
  | .host a => HostSys.Settling b s a
  | .remap i _ call _ => ∀ memory ∈ s.life.handles[i]?, LeavesRoom memory call

variable {b : Build} {s s' : HostSys} {a : MachineEvent} {σ : LockService BlockName UInt64 MemoryClaim}

theorem serviceOk_step (h : HostSys.ServiceOk b σ s) (ha : Settling b s a)
    (hs : Machine.step b s a = some s') : HostSys.ServiceOk b σ s' := by
  cases a with
  | host a => exact h.step ha.1 ha.2 hs
  | remap i proc call env =>
    obtain ⟨memory, hget, rfl⟩ := Option.map_eq_some_iff.mp hs
    have hroom := ha memory hget
    have hresized : Prog.Post (call.run b env memory) ⟨s.life.kernel, proc⟩ _ (fun _ _ => False) _ :=
      call.run_resized_post
    have hran : Prog.Post (call.run b env memory) ⟨s.life.kernel, proc⟩ _ (fun _ _ => False) _ :=
      call.run_post
    cases hrun : call.run b env memory ⟨s.life.kernel, proc⟩ with
    | ret res w =>
      cases res with
      | ok r =>
        have htouched := (hresized.of_ret hrun).touched
        exact h.withHandle hget (hran.of_ret hrun).sameHandle (htouched.resized hroom)
      | error e => exact (hran.of_error hrun).elim
    | stop why w =>
      have htouched := hresized.of_stop hrun
      exact h.withHandle hget (.refl memory) (htouched.resized hroom)

/-- **The library is a lock service**, with all of its calls: from any state of a run to any later one,
whoever remaps and grows blocks in between, the service takes steps of its own, and is in order. -/
theorem service_of_run (hr : Reach (Machine.step b) (Settling b) HostSys.init s)
    (hr' : Reach (Machine.step b) (Settling b) s s') :
    Relation.ReflTransGen HostSys.ServiceStep s.service s'.service ∧ HostSys.ServiceInOrder s'.service := by
  have h : HostSys.ServiceOk b .empty s :=
    hr.invariant HostSys.serviceOk_init fun _ _ _ h ha hs => serviceOk_step h ha hs
  have hstart : HostSys.ServiceOk b s.service s :=
    ⟨h.host, h.requests, HostSys.inOrder_of_reached h.origin h.reached, .refl⟩
  have hend : HostSys.ServiceOk b s.service s' :=
    hr'.invariant hstart fun _ _ _ h ha hs => serviceOk_step h ha hs
  exact ⟨hend.reached, HostSys.inOrder_of_reached hend.origin hend.reached⟩

/-- A test for `Settling`. -/
def settles (s : HostSys) : MachineEvent → Bool
  | .host a => HostSys.settles s a
  | .remap i _ call _ => decide (∀ memory ∈ s.life.handles[i]?, LeavesRoom memory call)

theorem settling_of_settles (h : settles s a = true) : Settling b s a := by
  cases a with
  | host a => exact HostSys.settling_of_settles h
  | remap i proc call env =>
    rw [settles, decide_eq_true_eq] at h
    exact h

/-- After `threeHandles` the second block is grown, and its handle claims what it has got. -/
def growsOne : List MachineEvent :=
  HostSys.threeHandles.map .host ++
    [.remap 1 .initial (.resizeGrow 8192) .willing, .remap 0 .initial .sync .willing,
     .host (.region 1 (.claim ⟨1, 8192, .readWrite⟩ .success .readWrite 4096 4096))]

/-- The second handle has both of its regions. -/
def hasBoth (s : HostSys) : Bool :=
  (s.life.handles[1]?).any fun h =>
    decide (s.held h = [⟨1, 1, .readWrite, 4096, 4096⟩, ⟨0, 1, .readWrite, 0, 32⟩])

theorem service_growsOne :
    ∃ s : HostSys, hasBoth s = true ∧
      Relation.ReflTransGen HostSys.ServiceStep HostSys.init.service s.service ∧
        HostSys.ServiceInOrder s.service := by
  have htrace : ∃ s, Reach (Machine.step ⟨false⟩) (Settling ⟨false⟩) HostSys.init s ∧ hasBoth s = true :=
    exists_reach_of_trace (g := settles) (t := hasBoth) growsOne (fun _ _ => settling_of_settles)
      (fun _ h => h) (by decide +kernel)
  obtain ⟨s, hr, hboth⟩ := htrace
  exact ⟨s, hboth, service_of_run .init hr⟩

end Machine

end Ipm
