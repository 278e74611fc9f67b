import Ipm.Memory.Closing
import Ipm.Memory.FailedGrow
import Ipm.Memory.Stale

/-!
# What a claim is worth

A claim is a promise about other claims. That its bytes can be read and written is another matter, and
rests on the mapping: `ipm_memory_claim_region` checks the range and the mode against what the handle says
of its mapping, and the handle may be remapped later, the block grown by others, and other handles of the
process closed.

For as long as the handle has an address, its mapping is the one it was opened with, because a remapping
that makes a new one leaves `NULL`. So the region stays where it was, in pages of the block, with the mode
that was asked for, and the file is long enough (`usable_of_claimed`).
-/

set_option autoImplicit false

namespace Ipm

open Lib

/-- A call that leaves a handle its address leaves it everything. -/
theorem Ran.stays {b : Build} {e : RemapEnv} {memory : Memory} {call : RemapCall} {w w' : World}
    {r : Remapped} (h : Ran b e memory call w r w') (hne : ipmMemoryPointer r.memory ≠ 0) :
    r.memory = memory ∧ w'.proc.pages = w.proc.pages := by
  cases h with
  | short _ hpages => exact ⟨rfl, hpages⟩
  | reached _ _ _ hpages hupdated =>
    cases hupdated with
    | kept _ => exact ⟨rfl, hpages⟩
    | lost _ _ _ => exact absurd rfl hne
    | moved _ _ => exact absurd rfl hne

/-- A claim that has been answered with success has passed the checks. -/
theorem claimRegionCheck_of_success {b : Build} {h : Handle} {lock : IpmResult} {access : AccessMode}
    {offset count : UInt64} {list : ClaimList} {waits : List Wait} {out : Option UInt64}
    (hclaim : (ipmMemoryClaimRegion b h lock access offset count list waits).ending =
      .returned .success out) : claimRegionCheck h access offset count = none := by
  rw [ipmMemoryClaimRegion] at hclaim
  split at hclaim
  · cases hclaim
  · cases hcheck : claimRegionCheck h access offset count with
    | none => rfl
    | some res =>
      rw [hcheck] at hclaim
      rcases claimRegionCheck_cases hcheck with rfl | rfl <;> cases hclaim

namespace MapSys

/-- Of the bytes of a handle's region, each is in a page of its block that may be accessed so, and no
further back than the end of the file. -/
structure Usable (s : MapSys) (h : MapHandle) (access : AccessMode) (offset count : UInt64) : Prop where
  mapped : ∀ byte, offset.toNat ≤ byte → byte < offset.toNat + count.toNat →
    (s.procs h.pid).pages ((ipmMemoryPointer h.memory + byte) / memoryPageSize.toNat) =
      some ⟨h.block.obj, 1 + byte / memoryPageSize.toNat, h.block.accessMode⟩
  mode : access = .readWrite → h.block.accessMode = .readWrite
  present : ∀ byte, offset.toNat ≤ byte → byte < offset.toNat + count.toNat →
    memoryPageSize.toNat + byte < (s.kernel.objs h.block.obj).length

/-- The pages at the address of a handle are those of its block. -/
structure View (s : MapSys) (h : MapHandle) : Prop where
  aligned : memoryPageSize.toNat ∣ h.block.memory
  shows : ∀ page, Covers h.block.memory h.block.size page → (s.procs h.pid).pages page =
    some ⟨h.block.obj, 1 + (page - h.block.memory / memoryPageSize.toNat), h.block.accessMode⟩
  size_le : h.block.size ≤ s.blockSize h

/-- The file has the whole block. -/
def Filed (obj : Nat) (k : Kernel) : Prop :=
  memoryPageSize.toNat + (k.header obj).blockSize.toNat ≤ (k.objs obj).length

instance (obj : Nat) (k : Kernel) : Decidable (Filed obj k) := inferInstanceAs (Decidable (_ ≤ _))

/-- Handles of one block, each with the view of it that it was opened with, or none. -/
structure Views (obj cobj : Nat) (s : MapSys) : Prop where
  owned : Owned obj cobj s
  view : ∀ h ∈ s.handles, h.block.memory ≠ 0 → s.View h
  filed : Filed obj s.kernel

/-- A growth is not to a size between what the handle has and what the block has, and leaves room for
the header page. -/
def Grows (s : MapSys) : MapEvent → Prop
  | .remap i call _ => ∀ h ∈ s.handles[i]?, ∀ newSize ∈ RemapSys.growth call,
      RemapSys.MayAsk h.block (s.blockSize h) newSize
  | _ => True

/-- What the calls of a run keep to. -/
def Orderly (s : MapSys) (a : MapEvent) : Prop := s.Careful a ∧ s.Grows a

/-- What a step leaves as it was. -/
structure Leaves (obj : Nat) (s s' : MapSys) : Prop where
  handles : ∀ g ∈ s'.handles, g.block.memory ≠ 0 → g ∈ s.handles ∧
    ∀ page, s.owner g.pid page = some g.id → (s'.procs g.pid).pages page = (s.procs g.pid).pages page
  size_le : (s.kernel.header obj).blockSize ≤ (s'.kernel.header obj).blockSize
  filed : Filed obj s'.kernel

variable {b : Build} {s s' : MapSys} {obj cobj i : Nat} {g h : MapHandle} {a : MapEvent} {w : World}

/-! ## The file -/

theorem Filed.page {k : Kernel} (h : Filed obj k) : memoryPageSize.toNat ≤ (k.objs obj).length :=
  Nat.le_trans (Nat.le_add_right _ _) h

/-- A block that is grown has the file grown first. -/
theorem Filed.touched {memory : Memory} {k k' : Kernel} {call : RemapCall}
    (h : Filed memory.realMemory.obj k) (ht : Touched memory call k k')
    (hask : ∀ newSize ∈ RemapSys.growth call,
      RemapSys.MayAsk memory.realMemory (k.header memory.realMemory.obj).blockSize newSize) :
    Filed memory.realMemory.obj k' := by
  rcases ht with rfl | ⟨newSize, rfl, hle, hgrown⟩
  · exact h
  · have hwrap := (hask newSize rfl).2.resolve_left hle
    have hlength : (memoryPageSize + roundSize newSize).toNat =
        memoryPageSize.toNat + (roundSize newSize).toNat := by
      rw [UInt64.toNat_add, Nat.mod_eq_of_lt]
      rwa [Nat.add_comm]
    have hroom : ¬ (memoryPageSize + roundSize newSize).toNat < memoryPageSize.toNat := by
      rw [hlength]
      exact Nat.not_lt.mpr (Nat.le_add_right _ _)
    obtain rfl := hgrown.resolve_left hroom
    rw [Filed, GrowSys.blockSize_grown, Kernel.objs_modifyObj_self, ← hlength]
    exact (ShmObject.length_resize _ _).ge

theorem Filed.of_extent {w' : World} (h : Filed obj w.kernel) (hextent : w'.extent = w.extent) :
    Filed obj w'.kernel := by
  have hobj := congrFun hextent obj
  have hlength : (w'.kernel.objs obj).length = (w.kernel.objs obj).length := congrArg Prod.fst hobj
  have hsize : (w'.kernel.header obj).blockSize = (w.kernel.header obj).blockSize := congrArg Prod.snd hobj
  rw [Filed, hlength, hsize]
  exact h

/-! ## One step -/

/-- A remapping of one handle leaves the pages of the others. -/
theorem Owned.spares {memory : Memory} {size : UInt64} {os : Os} {page id : Nat} (hok : Owned obj cobj s)
    (hh : h ∈ s.handles) (hremapping : Remapping os size h.block (s.procs h.pid) memory.realMemory w.proc)
    (hlow : h.block.memory = 0 → ∀ page, Reaches 0 h.block.size page →
      (s.procs h.pid).pages page = none)
    (hnew : ∀ addr, os.bodyMmap = .ok addr → ∀ page, Reaches addr size page →
      (s.procs h.pid).pages page = none ∨ Reaches h.block.memory h.block.size page)
    (hown : s.owner h.pid page = some id) (hid : id ≠ h.id) :
    w.proc.pages page = (s.procs h.pid).pages page := by
  have hmapped := hok.mapped _ _ _ hown
  have hother : ¬ Reaches h.block.memory h.block.size page := by
    intro hreaches
    by_cases hnull : h.block.memory = 0
    · rw [hnull] at hreaches
      exact hmapped (hlow hnull page hreaches)
    · obtain ⟨hmine, -⟩ := (hok.handles h hh).body hnull page hreaches.2
      exact hid (Option.some.inj (hown.symm.trans hmine))
  rcases hremapping.pages page with hsame | hold | ⟨addr, haddr, hreaches⟩
  · exact hsame
  · exact absurd hold hother
  · exact ((hnew addr haddr page hreaches).resolve_right hother |> hmapped).elim

/-- A handle of another process, or one whose pages have not changed. -/
theorem pages_update {p : Proc} {page : Nat}
    (hsame : g.pid = h.pid → p.pages page = (s.procs h.pid).pages page) :
    (Function.update s.procs h.pid p g.pid).pages page = (s.procs g.pid).pages page := by
  by_cases hpid : g.pid = h.pid
  · rw [hpid, Function.update_self]
    exact hsame hpid
  · rw [Function.update_of_ne hpid]

/-- A handle that is closed takes its own pages. -/
theorem leaves_closed (hok : Views obj cobj s) (hget : s.handles[i]? = some h) (hfits : s.Fits h)
    (hunmapped : Unmapped ((s.world h).closingAll h.memory) (s.world h) w) :
    Leaves obj s (s.settle h w (s.handles.eraseIdx i)) := by
  have hexactly := hfits.exactly hok.owned (List.mem_of_getElem? hget) hunmapped
  have hsize : (w.kernel.header obj).blockSize = (s.kernel.header obj).blockSize :=
    congrArg Prod.snd (congrFun hunmapped.extent obj)
  refine ⟨?_, UInt64.le_of_eq hsize.symm, hok.filed.of_extent (w := s.world h) hunmapped.extent⟩
  intro g hg _
  obtain ⟨j, hji, hj⟩ := List.mem_eraseIdx_iff_getElem?.mp hg
  refine ⟨List.mem_of_getElem? hj, fun page hown => pages_update fun hpid => ?_⟩
  rw [hexactly page, if_neg]
  rw [← hpid, hown]
  exact fun hsame => id_ne hok.owned hget hj hji (Option.some.inj hsame)

/-- Handles that go with their process. -/
theorem leaves_ended {k : Kernel} (pid : Nat)
    (hsize : (s.kernel.header obj).blockSize ≤ (k.header obj).blockSize) (hfiled : Filed obj k) :
    Leaves obj s (s.ended pid k) :=
  ⟨fun _ hg _ => ⟨List.mem_of_mem_filter hg, fun _ _ => rfl⟩, hsize, hfiled⟩

theorem leaves_remap {call : RemapCall} {env : RemapEnv} (hok : Views obj cobj s)
    (hget : s.handles[i]? = some h) (ha : s.Orderly (.remap i call env))
    (hs : MapSys.step b s (.remap i call env) = some s') : Leaves obj s s' := by
  obtain ⟨h', hget', hout⟩ := Option.bind_eq_some_iff.mp hs
  obtain rfl := Option.some.inj (hget.symm.trans hget')
  obtain ⟨⟨hlow, hnew⟩, hask⟩ := And.intro (ha.1 h hget) (ha.2 h hget)
  have hmem := List.mem_of_getElem? hget
  obtain rfl : h.memory.realMemory.obj = obj := (hok.owned.handles h hmem).real
  have hran : Prog.Post (call.run b env h.memory) (s.world h) _ (fun _ _ => True) _ := call.run_post
  have hremapping : Prog.Post (call.run b env h.memory) (s.world h) _ (fun _ _ => True) _ :=
    call.run_remapping
  have hresized : Prog.Post (call.run b env h.memory) (s.world h) _ (fun _ _ => True) _ :=
    call.run_resized_post
  have htouched : ∀ {k' : Kernel}, Touched h.memory call s.kernel k' →
      (s.kernel.header h.memory.realMemory.obj).blockSize ≤
        (k'.header h.memory.realMemory.obj).blockSize ∧ Filed h.memory.realMemory.obj k' :=
    fun ht => ⟨(RemapSys.Touched.grows ht hok.filed.page hask).1, hok.filed.touched ht hask⟩
  cases hrun : call.run b env h.memory (s.world h) with
  | ret res w =>
    rw [hrun] at hout
    cases res with
    | error res => cases hout
    | ok r =>
      obtain rfl := Option.some.inj hout
      obtain ⟨hsize, hfiled⟩ := htouched (hresized.of_ret hrun).touched
      have hran := hran.of_ret hrun
      refine ⟨?_, hsize, hfiled⟩
      intro g hg hne
      rcases mem_set_or hg with rfl | ⟨j, hji, hj⟩
      · obtain ⟨hsame, hpages⟩ := hran.stays hne
        have hback : ({ h with memory := r.memory } : MapHandle) = h := by rw [hsame]
        rw [hback]
        exact ⟨hmem, fun page _ => pages_update fun _ => congrFun hpages page⟩
      · refine ⟨List.mem_of_getElem? hj, fun page hown => pages_update fun hpid => ?_⟩
        have hid := id_ne hok.owned hget hj hji
        rw [hpid] at hown
        cases hran with
        | short _ hpages => exact congrFun hpages page
        | reached _ hblock _ _ _ =>
          have hremap := (hremapping.of_ret hrun).2
          rw [hblock] at hremap
          exact hok.owned.spares hmem hremap hlow hnew hown hid
  | stop why w =>
    rw [hrun] at hout
    obtain rfl := Option.some.inj hout
    obtain ⟨hsize, hfiled⟩ := htouched (hresized.of_stop hrun)
    exact leaves_ended h.pid hsize hfiled

/-- **What a step leaves**: whoever still has an address has what it had. -/
theorem leaves_step (hok : Views obj cobj s) (ha : s.Orderly a) (hs : MapSys.step b s a = some s') :
    Leaves obj s s' := by
  cases a with
  | remap i call env =>
    obtain ⟨h, hget, -⟩ := Option.bind_eq_some_iff.mp hs
    exact leaves_remap hok hget ha hs
  | close i ctx lock claims real =>
    obtain ⟨h, hget, hout⟩ := Option.bind_eq_some_iff.mp hs
    have hfits : s.Fits h := ha.1 h hget
    have hpost := ipmMemoryClose_unmaps b ctx lock claims real (w := s.world h)
      (E := fun _ _ => False) (hok.owned.closable (List.mem_of_getElem? hget) hfits.page)
    cases hrun : ipmMemoryClose b ctx lock claims real h.memory (s.world h) with
    | ret res w =>
      rw [hrun] at hout
      obtain rfl := Option.some.inj hout
      cases res with
      | ok _ => exact leaves_closed hok hget hfits (hpost.of_ret hrun)
      | error e => exact (hpost.of_error hrun).elim
    | stop why w =>
      rw [hrun] at hout
      obtain rfl := Option.some.inj hout
      have hextent : w.extent = (s.world h).extent := (hpost.of_stop hrun).1
      have hsize : (w.kernel.header obj).blockSize = (s.kernel.header obj).blockSize :=
        congrArg Prod.snd (congrFun hextent obj)
      exact leaves_ended h.pid (UInt64.le_of_eq hsize.symm) (hok.filed.of_extent (w := s.world h) hextent)
  | clean i claims real =>
    obtain ⟨h, hget, hout⟩ := Option.bind_eq_some_iff.mp hs
    have hfits : s.Fits h := ha.1 h hget
    obtain ⟨_, w, hrun, hunmapped⟩ := (ipmMemoryClean_unmaps b claims real (w := s.world h)
      (E := fun _ _ => False) (S := fun _ _ => False)
      (hok.owned.closable (List.mem_of_getElem? hget) hfits.page)).exists_ret (fun _ _ h => h)
        fun _ _ h => h
    rw [hrun] at hout
    obtain rfl := Option.some.inj hout
    exact leaves_closed hok hget hfits hunmapped
  | program pid pages =>
    obtain rfl := Option.some.inj hs
    refine ⟨fun g hg _ => ⟨hg, fun page hown => ?_⟩, UInt64.le_refl _, hok.filed⟩
    have hleft : pages page = (s.procs g.pid).pages page ∨ g.pid ≠ pid := by
      by_cases hpid : g.pid = pid
      · rw [hpid] at hown ⊢
        exact .inl (ha.1 page fun hnone => Option.some_ne_none _ (hown.symm.trans hnone))
      · exact .inr hpid
    show (Function.update s.procs pid _ g.pid).pages page = _
    by_cases hpid : g.pid = pid
    · rw [← hpid, Function.update_self]
      exact hleft.resolve_right fun hne => hne hpid
    · rw [Function.update_of_ne hpid]

theorem Views.step (hok : Views obj cobj s) (ha : s.Orderly a) (hs : MapSys.step b s a = some s') :
    Views obj cobj s' := by
  have hleaves := leaves_step hok ha hs
  refine ⟨hok.owned.step ha.1 hs, ?_, hleaves.filed⟩
  intro g hg hne
  obtain ⟨hold, hpages⟩ := hleaves.handles g hg hne
  have hview := hok.view g hold hne
  have hhandle := hok.owned.handles g hold
  refine ⟨hview.aligned, fun page hcovered => ?_, UInt64.le_trans hview.size_le ?_⟩
  · rw [hpages page (hhandle.body hne page hcovered).1]
    exact hview.shows page hcovered
  · rw [blockSize, blockSize, hhandle.real]
    exact hleaves.size_le

/-! ## Runs -/

theorem Owned.eq_of_id (hok : Owned obj cobj s) (hg : g ∈ s.handles) (hh : h ∈ s.handles)
    (hid : g.id = h.id) : g = h := by
  obtain ⟨i, hi⟩ := List.mem_iff_getElem?.mp hg
  obtain ⟨j, hj⟩ := List.mem_iff_getElem?.mp hh
  by_cases hij : i = j
  · rw [hij, hj] at hi
    exact (Option.some.inj hi).symm
  · exact absurd hid (id_ne hok hj hi hij)

/-- Whoever has an address at the end of a run had it at the beginning, and is as it was. -/
theorem mem_of_run (hok : Views obj cobj s) (hr : Reach (MapSys.step b) Orderly s s') (hg : g ∈ s'.handles)
    (hne : g.block.memory ≠ 0) : g ∈ s.handles := by
  have hall : Views obj cobj s' ∧ ∀ g ∈ s'.handles, g.block.memory ≠ 0 → g ∈ s.handles :=
    hr.invariant (I := fun t => Views obj cobj t ∧ ∀ g ∈ t.handles, g.block.memory ≠ 0 → g ∈ s.handles)
      ⟨hok, fun _ hg _ => hg⟩ fun t a t' ht ha hs => by
        refine ⟨ht.1.step ha hs, fun g hg hne => ?_⟩
        exact ht.2 g ((leaves_step ht.1 ha hs).handles g hg hne).1 hne
  exact hall.2 g hg hne

/-- A region inside the mapping of a handle. -/
theorem Views.usable {access : AccessMode} {offset count : UInt64} (hok : Views obj cobj s)
    (hh : h ∈ s.handles) (hne : h.block.memory ≠ 0)
    (hinside : offset.toNat + count.toNat ≤ h.block.size.toNat)
    (hmode : access = .readWrite → h.block.accessMode = .readWrite) : s.Usable h access offset count := by
  have hview := hok.view h hh hne
  obtain ⟨first, hfirst⟩ := hview.aligned
  have hpage : memoryPageSize.toNat = 4096 := rfl
  refine ⟨fun byte _ hbyte => ?_, hmode, fun byte _ hbyte => ?_⟩
  · have hat : (ipmMemoryPointer h.memory + byte) / memoryPageSize.toNat =
        h.block.memory / memoryPageSize.toNat + byte / memoryPageSize.toNat := by
      show (h.block.memory + byte) / _ = _
      rw [hfirst, hpage]
      omega
    have hcovered : Covers h.block.memory h.block.size
        (h.block.memory / memoryPageSize.toNat + byte / memoryPageSize.toNat) := by
      rw [Covers, hfirst, hpage]
      omega
    rw [hat, hview.shows _ hcovered, Nat.add_sub_cancel_left]
  · have hsize := UInt64.le_iff_toNat_le.mp hview.size_le
    have hfiled := hok.filed
    rw [Filed, ← (hok.owned.handles h hh).real] at hfiled
    rw [blockSize] at hsize
    omega

/-- **A claimed region can be used**, from the claim on, whatever is remapped, grown or closed, for as long
as the handle is there and has an address; and that is the address it had. -/
theorem usable_of_claimed {s₀ : MapSys} {b' : Build} {lock : IpmResult} {access : AccessMode}
    {offset count : UInt64} {list : ClaimList} {waits : List Wait} {out : Option UInt64}
    (h₀ : Views obj cobj s₀) (hr : Reach (MapSys.step b) Orderly s₀ s) (hh : h ∈ s.handles)
    (hclaim : (ipmMemoryClaimRegion b' h.memory.handle lock access offset count list waits).ending =
      .returned .success out)
    (hwraps : ¬ Wraps h.memory.handle access offset count)
    (hr' : Reach (MapSys.step b) Orderly s s') (hg : g ∈ s'.handles) (hid : g.id = h.id)
    (hpointer : ipmMemoryPointer g.memory ≠ 0) :
    ipmMemoryPointer g.memory = ipmMemoryPointer h.memory ∧ s'.Usable g access offset count := by
  have hok : Views obj cobj s := hr.invariant h₀ fun _ _ _ ht ha hs => ht.step ha hs
  have hok' : Views obj cobj s' := hr'.invariant hok fun _ _ _ ht ha hs => ht.step ha hs
  have hold := mem_of_run hok hr' hg hpointer
  obtain rfl : g = h := hok.owned.eq_of_id hold hh hid
  obtain ⟨hmode, hinside⟩ :=
    (claimRegionCheck_eq_none_iff _ _ _ _).mp (claimRegionCheck_of_success hclaim)
  refine ⟨rfl, hok'.usable hg hpointer (hinside.resolve_right hwraps) fun haccess => ?_⟩
  cases hread : g.block.accessMode with
  | readOnly => exact absurd ⟨hread, haccess⟩ hmode
  | readWrite => rfl

/-! ## A block grown by somebody else -/

/-- The handles see their block, and the file has it. -/
def seen (s : MapSys) : Bool :=
  s.handles.all (fun h => asOpened h &&
    decide ((s.procs h.pid).pages 32 = some ⟨1, 1, h.block.accessMode⟩ ∧ s.blockSize h = 4096)) &&
  decide (Filed 1 s.kernel)

theorem views_of_seen (hok : Owned 1 0 s) (hseen : s.seen = true) : Views 1 0 s := by
  obtain ⟨hhandles, hfiled⟩ := (Bool.and_eq_true _ _).mp hseen
  refine ⟨hok, fun h hh _ => ?_, of_decide_eq_true hfiled⟩
  obtain ⟨hopened, hat⟩ := (Bool.and_eq_true _ _).mp (List.all_eq_true.mp hhandles h hh)
  obtain ⟨hshown, hblock⟩ := of_decide_eq_true hat
  obtain ⟨-, -, hobj, -, -, -, -, -, -, -, hmemory, hsize⟩ := of_decide_eq_true hopened
  refine ⟨?_, fun page hcovered => ?_, ?_⟩
  · rw [hmemory]
    decide
  · obtain rfl := (body_asOpened hopened page).mp hcovered
    rw [hmemory, hobj]
    exact hshown
  · rw [hsize, hblock]
    exact UInt64.le_refl _

/-- Process 0 grows the block to two pages, and gets no mapping of them. -/
def lostGrowth : MapEvent := .remap 0 (.resizeGrow 8192) .full

/-- Handle 1 is as it was opened, and claims its page. -/
def claimsPage (s : MapSys) : Bool :=
  (s.handles[1]?).any fun h => asOpened h && decide (h.id = 1 ∧
    (ipmMemoryClaimRegion ⟨false⟩ h.memory.handle .success .readWrite 0 4096
      (s.kernel.objs 0).list []).ending = .returned .success (some 0) ∧
    ¬ Wraps h.memory.handle .readWrite 0 4096)

def usableTest : Bool :=
  (twoHandles none).any fun s₀ => s₀.ready && s₀.seen && s₀.claimsPage &&
    (s₀.handles[0]?).any (fun h => decide (h.block.memory ≠ 0 ∧
      RemapSys.MayAsk h.block (s₀.blockSize h) 8192)) &&
    (step ⟨false⟩ s₀ lostGrowth).any fun s =>
      (s.handles[1]?).any fun h => asOpened h && decide (h.id = 1 ∧ s.blockSize h = 8192)

theorem usable_after_lostGrowth :
    ∃ (s₀ s : MapSys) (h : MapHandle), Views 1 0 s₀ ∧ Reach (step ⟨false⟩) Orderly s₀ s ∧
      s.handles[1]? = some h ∧ s.blockSize h = 8192 ∧ s.Usable h .readWrite 0 4096 := by
  have htest : usableTest = true := by decide +kernel
  obtain ⟨s₀, hs₀, htest⟩ := (Option.any_eq_true _ _).mp htest
  simp only [Bool.and_eq_true] at htest
  obtain ⟨⟨⟨⟨hready, hseen⟩, hclaims⟩, hfirst⟩, hstep⟩ := htest
  have hviews := views_of_seen (owned_of_ready hready (owner_twoHandles hs₀)) hseen
  have horderly : s₀.Orderly lostGrowth := by
    obtain ⟨g, hg, hat⟩ := (Option.any_eq_true _ _).mp hfirst
    obtain ⟨hne, hask⟩ := of_decide_eq_true hat
    constructor
    · intro g' hg'
      obtain rfl := Option.some.inj (hg.symm.trans hg')
      exact ⟨fun hnull => absurd hnull hne, nofun⟩
    · intro g' hg' newSize hsize
      obtain rfl := Option.some.inj (hg.symm.trans hg')
      obtain rfl := Option.some.inj hsize
      exact hask
  obtain ⟨s, hs, hlast⟩ := (Option.any_eq_true _ _).mp hstep
  obtain ⟨h, hget, hat⟩ := (Option.any_eq_true _ _).mp hlast
  obtain ⟨hopened, hat⟩ := (Bool.and_eq_true _ _).mp hat
  obtain ⟨hid, hblock⟩ := of_decide_eq_true hat
  obtain ⟨g, hg, hclaims⟩ := (Option.any_eq_true _ _).mp hclaims
  obtain ⟨hid₀, hclaim, hwraps⟩ := of_decide_eq_true ((Bool.and_eq_true _ _).mp hclaims).2
  obtain ⟨-, -, -, -, -, -, -, -, -, -, hmemory, -⟩ := of_decide_eq_true hopened
  have hr : Reach (step ⟨false⟩) Orderly s₀ s := .next .init horderly hs
  have hpointer : ipmMemoryPointer h.memory ≠ 0 := by
    rw [show ipmMemoryPointer h.memory = 0x20000 from hmemory]
    decide
  exact ⟨s₀, s, h, hviews, hr, hget, hblock, (usable_of_claimed hviews .init
    (List.mem_of_getElem? hg) hclaim hwraps hr (List.mem_of_getElem? hget) (hid.trans hid₀.symm) hpointer).2⟩

end MapSys

end Ipm
