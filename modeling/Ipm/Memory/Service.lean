import Ipm.Lib.LockService
import Ipm.Memory.Host

/-!
# The library is a lock service

What all of it is for, seen from the callers: blocks go by names, handles are opened and closed, and
regions of a block are held under the access ids of its handles. The machine of `Memory/Host.lean`, with
its shared objects, headers, lists and sleepers, refines the service of `Lib/LockService.lean`, which has
none of these.

A handle is closed here only while none of its requests is asleep or waking up; one with regions gives
them back first, as `ipm_memory_close` begins by doing. Nothing else is asked of the callers than before.
That the service is in order then needs no argument here: it is a fact about every run of a service.
-/

set_option autoImplicit false

namespace Ipm

open Lib

namespace HostSys

/-- What is held of a block: nothing, unless it has a list. -/
def heldOf (s : HostSys) (n : BlockName) : Multiset MemoryClaim :=
  (s.life.kernel.names (objectPath n .activeClaims)).elim 0 fun obj => (s.claims obj).granted

/-- The service the machine gives. -/
def service (s : HostSys) : LockService BlockName UInt64 MemoryClaim where
  handles := s.life.handles.map fun memory => (memory.blockName, memory.realMemory.accessId)
  table := s.heldOf

/-- Nobody closes a handle under a request of its own. -/
def Settled (s : HostSys) : HostEvent → Prop
  | .life (.close _ _ _ _ i) => ∀ memory ∈ s.life.handles[i]?,
      ∀ c ∈ (s.claims memory.activeClaims.obj).waiting ++ (s.claims memory.activeClaims.obj).woken,
        c.procId ≠ memory.realMemory.accessId
  | _ => True

/-- A step of the service. -/
abbrev ServiceStep : LockService BlockName UInt64 MemoryClaim →
    LockService BlockName UInt64 MemoryClaim → Prop :=
  LockService.Step (·.procId) ClaimSys.Conflicting

/-- What holds of every lock service, for this one. -/
abbrev ServiceInOrder : LockService BlockName UInt64 MemoryClaim → Prop :=
  LockService.Ok (·.procId) ClaimSys.Conflicting

variable {b : Build} {s s' : HostSys} {a : HostEvent} {memory : Memory} {n : BlockName} {obj i : Nat}
variable {σ : LockService BlockName UInt64 MemoryClaim}

/-- The machine is in order, every request is one of a live handle, and the service got here from `σ` by
steps of its own. -/
structure ServiceOk (b : Build) (σ : LockService BlockName UInt64 MemoryClaim) (s : HostSys) : Prop where
  host : HostOk b (Orderly b) s
  requests : ∀ n obj, s.life.kernel.names (objectPath n .activeClaims) = some obj →
    ∀ c ∈ (s.claims obj).requests, (n, c.procId) ∈ s.service.handles
  origin : ServiceInOrder σ
  reached : Relation.ReflTransGen ServiceStep σ s.service

/-! ## Reading the machine -/

theorem table_some (hl : s.life.kernel.names (objectPath n .activeClaims) = some obj) :
    s.service.table n = ((s.claims obj).granted : Multiset MemoryClaim) := by
  show s.heldOf n = _
  rw [heldOf, hl]
  rfl

theorem table_none (hl : s.life.kernel.names (objectPath n .activeClaims) = none) :
    s.service.table n = 0 := by
  show s.heldOf n = _
  rw [heldOf, hl]
  rfl

theorem inOrder_of_reached {t : LockService BlockName UInt64 MemoryClaim} (h : ServiceInOrder σ)
    (hs : Relation.ReflTransGen ServiceStep σ t) : ServiceInOrder t :=
  h.run ClaimSys.conflicting_symm ClaimSys.conflicting_irrefl hs

/-- The ledger behind a linked list is exact. -/
theorem HostOk.ledger (h : HostOk b (Orderly b) s)
    (hl : s.life.kernel.names (objectPath n .activeClaims) = some obj) :
    ClaimSys.LedgerOk (s.claims obj) :=
  (h.claims n obj hl).invariant (I := ClaimSys.LedgerOk) (ClaimSys.ledgerOk_init (by decide))
    fun _ _ _ h hg hs => (h.step hg.1 hg.2.2 hs).1

/-- A linked list has a handle. -/
theorem HostOk.exists_handle (h : HostOk b (Orderly b) s)
    (hl : s.life.kernel.names (objectPath n .activeClaims) = some obj) :
    ∃ u ∈ s.life.handles, u.blockName = n := by
  obtain ⟨u, hu, hname⟩ := List.countP_pos_iff.mp (h.life.counted.pos hl)
  exact ⟨u, hu, of_decide_eq_true hname⟩

theorem mem_handles {id : UInt64} : (n, id) ∈ s.service.handles ↔
    ∃ u ∈ s.life.handles, u.blockName = n ∧ u.realMemory.accessId = id := by
  simp [service]

/-! ## Critical sections -/

/-- A critical section works on one table. -/
theorem service_put (h : HostOk b (Orderly b) s)
    (hl : s.life.kernel.names (objectPath n .activeClaims) = some obj) (t : ClaimSys) :
    (s.put obj t).service = s.service.put n t.granted := by
  have htable : (s.put obj t).service.table = (s.service.put n t.granted).table := by
    funext m
    rw [LockService.table_put]
    split_ifs with hm
    · have hl' : (s.put obj t).life.kernel.names (objectPath m .activeClaims) = some obj := hm ▸ hl
      rw [table_some hl', claims_put_self]
    · cases hm' : s.life.kernel.names (objectPath m .activeClaims) with
      | none =>
        have hm'' : (s.put obj t).life.kernel.names (objectPath m .activeClaims) = none := hm'
        rw [table_none hm', table_none hm'']
      | some i =>
        have hne : i ≠ obj := fun he => hm (h.life.counted.unique hl (he ▸ hm')).1
        have hm'' : (s.put obj t).life.kernel.names (objectPath m .activeClaims) = some i := hm'
        rw [table_some hm', table_some hm'', claims_put_ne t hne]
  exact congrArg (LockService.mk s.service.handles) htable

theorem ServiceOk.section {a : ClaimEvent} {t : ClaimSys} (h : ServiceOk b σ s)
    (hget : s.life.handles[i]? = some memory) (hmade : a.MadeWith memory.handle)
    (ha : Orderly b (s.claims memory.activeClaims.obj) a)
    (hs : ClaimSys.step b (s.claims memory.activeClaims.obj) a = some t) :
    ServiceOk b σ (s.put memory.activeClaims.obj t) := by
  have hmem := List.mem_of_getElem? hget
  have hl : s.life.kernel.names (objectPath memory.blockName .activeClaims) =
      some memory.activeClaims.obj := (h.host.life.linked memory hmem).names .activeClaims
  -- a new request is one of the handle it is made with
  have howned : ∀ c ∈ t.requests, (memory.blockName, c.procId) ∈ s.service.handles := by
    refine ClaimSys.forall_requests_step hs (h.requests _ _ hl) ?_
    rintro hd lock access offset count rfl
    obtain rfl : hd = memory.handle := hmade
    exact mem_handles.mpr ⟨memory, hmem, rfl, rfl⟩
  refine ⟨h.host.section hget ha hs, fun m o hm => ?_, h.origin, ?_⟩
  · by_cases ho : o = memory.activeClaims.obj
    · obtain rfl : memory.blockName = m := (h.host.life.counted.unique hm (ho ▸ hl)).1
      rw [ho, claims_put_self]
      exact howned
    · rw [claims_put_ne t ho]
      exact h.requests m o hm
  · refine h.reached.tail ?_
    rw [service_put h.host hl t]
    refine .table ?_ fun c hc => howned c (ClaimSys.mem_requests.mpr (.inl hc))
    rw [table_some hl]
    exact ((h.host.ledger hl).step ha.1 ha.2.2 hs).2

/-! ## Whole calls -/

/-- The handles of the service after a call, by a step of its own. -/
theorem handles_reached {a : LifeEvent} {life : LifeSys} (hids : life.IdsOk)
    (hcall : LifeSys.Called s.life a life)
    (hfree : ∀ c lock claims real i, a = .close c lock claims real i →
      ∀ memory ∈ s.life.handles[i]?, ∀ c ∈ s.service.table memory.blockName,
        c.procId ≠ memory.realMemory.accessId) :
    Relation.ReflTransGen ServiceStep s.service
      ⟨({ s with life := life } : HostSys).service.handles, s.service.table⟩ := by
  rcases hcall.handles with heq | ⟨memory, heq, -⟩ | ⟨c, lock, claims, real, i, ha, heq⟩
  · have hsame : ({ s with life := life } : HostSys).service.handles = s.service.handles := by
      simp [service, heq]
    rw [hsame]
  · have hmore : ({ s with life := life } : HostSys).service.handles =
        s.service.handles ++ [(memory.blockName, memory.realMemory.accessId)] := by
      simp [service, heq]
    rw [hmore]
    refine .single (.open memory.blockName memory.realMemory.accessId fun hold => ?_)
    -- two handles with one access id
    obtain ⟨u, hu, hname, hid⟩ := mem_handles.mp hold
    have hpair := hids.distinct
    rw [heq, List.pairwise_append] at hpair
    exact hpair.2.2 u hu memory (List.mem_singleton_self _) hname hid
  · cases hget : s.life.handles[i]? with
    | none =>
      have hsame : ({ s with life := life } : HostSys).service.handles = s.service.handles := by
        simp [service, heq, List.eraseIdx_of_length_le (List.getElem?_eq_none_iff.mp hget)]
      rw [hsame]
    | some memory =>
      have hless : ({ s with life := life } : HostSys).service.handles =
          s.service.handles.eraseIdx i := by
        simp [service, heq, List.eraseIdx_map]
      rw [hless]
      refine .single (.close (n := memory.blockName) (h := memory.realMemory.accessId) ?_ ?_)
      · simp [service, hget]
      · exact hfree c lock claims real i ha memory hget

/-- A block keeps its list as long as it has one. -/
theorem HostOk.names_stable {a : LifeEvent} {life : LifeSys} {old : Nat} (h : HostOk b (Orderly b) s)
    (h' : HostOk b (Orderly b) { s with life := life }) (hcall : LifeSys.Called s.life a life)
    (hl : s.life.kernel.names (objectPath n .activeClaims) = some old)
    (hl' : life.kernel.names (objectPath n .activeClaims) = some obj) : obj = old := by
  -- a handle that was there before and is there afterwards
  have hboth : ∃ u ∈ s.life.handles, u ∈ life.handles ∧ u.blockName = n := by
    obtain ⟨u, hu, hname⟩ := h.exists_handle hl
    obtain ⟨v, hv, hname'⟩ := h'.exists_handle hl'
    rcases hcall.handles with heq | ⟨memory, heq, -⟩ | ⟨-, -, -, -, i, -, heq⟩
    · exact ⟨u, hu, heq ▸ hu, hname⟩
    · exact ⟨u, hu, heq ▸ List.mem_append_left _ hu, hname⟩
    · have hv' : v ∈ life.handles := hv
      exact ⟨v, List.mem_of_mem_eraseIdx (heq ▸ hv'), hv, hname'⟩
  obtain ⟨u, hu, hu', rfl⟩ := hboth
  rw [(h.life.linked u hu).names .activeClaims] at hl
  have hname : life.kernel.names (objectPath u.blockName .activeClaims) =
      some (u.block .activeClaims).obj := (h'.life.linked u hu').names .activeClaims
  rw [hname] at hl'
  exact (Option.some.inj hl').symm.trans (Option.some.inj hl)

/-- A handle that may be closed has nothing held under its access id, and nothing asked for. -/
theorem ServiceOk.closable {c : Caller} {lock : IpmResult} {claims real : Os} (h : ServiceOk b σ s)
    (ha : s.life.Permitted (.close c lock claims real i))
    (hset : s.Settled (.life (.close c lock claims real i))) (hget : s.life.handles[i]? = some memory) :
    ∀ c ∈ (s.claims memory.activeClaims.obj).requests, c.procId ≠ memory.realMemory.accessId := by
  have hl : s.life.kernel.names (objectPath memory.blockName .activeClaims) =
      some memory.activeClaims.obj :=
    (h.host.life.linked memory (List.mem_of_getElem? hget)).names .activeClaims
  have hquiet := hset memory hget
  intro c hc
  rcases ClaimSys.mem_requests.mp hc with hgranted | hwaiting | hwoken
  · exact (ha.2.2 memory hget).none c ((h.host.ledger hl).mem_iff.mpr hgranted)
  · exact hquiet c (List.mem_append_left _ hwaiting)
  · exact hquiet c (List.mem_append_right _ hwoken)

theorem ServiceOk.call {a : LifeEvent} {life : LifeSys} (h : ServiceOk b σ s)
    (ha : s.life.Permitted a) (hroom : s.life.Roomy a) (hset : s.Settled (.life a))
    (hcall : ¬ LifeSys.Regions a) (hs : LifeSys.step b s.life a = some life) :
    ServiceOk b σ { s with life := life } := by
  have hhost : HostOk b (Orderly b) { s with life := life } := h.host.call ha hroom hcall hs
  have hcalled := h.host.life.called ha hroom hcall hs
  have hfree : ∀ c lock claims real i, a = .close c lock claims real i →
      ∀ memory ∈ s.life.handles[i]?, ∀ c ∈ s.service.table memory.blockName,
        c.procId ≠ memory.realMemory.accessId := by
    rintro c lock claims real i rfl memory hget d hd
    have hl := (h.host.life.linked memory (List.mem_of_getElem? hget)).names .activeClaims
    rw [table_some hl] at hd
    exact h.closable ha hset hget d (ClaimSys.mem_requests.mpr (.inl hd))
  have hreached := h.reached.trans (handles_reached hhost.ids hcalled hfree)
  have hok := inOrder_of_reached h.origin hreached
  have htable : s.service.table = ({ s with life := life } : HostSys).service.table := by
    funext n
    cases hl' : life.kernel.names (objectPath n .activeClaims) with
    | none =>
      -- nobody has a handle, so nothing is held
      have hnone : ({ s with life := life } : HostSys).service.table n = 0 := table_none hl'
      rw [hnone]
      refine hok.table_eq_zero fun id hid => ?_
      obtain ⟨u, hu, rfl, -⟩ := mem_handles.mp hid
      have hl : life.kernel.names (objectPath u.blockName .activeClaims) = _ :=
        (hhost.life.linked u hu).names .activeClaims
      rw [hl'] at hl
      cases hl
    | some obj =>
      have hsome : ({ s with life := life } : HostSys).service.table n = _ := table_some hl'
      rw [hsome]
      rcases h.host.claims_called hcalled hl' with ⟨hl, heq⟩ | ⟨hnew, heq⟩
      · rw [heq, table_some hl]
      · rw [heq]
        cases hl : s.life.kernel.names (objectPath n .activeClaims) with
        | none => exact table_none hl
        | some old =>
          obtain rfl := h.host.names_stable hhost hcalled hl hl'
          exact absurd (h.host.life.counted.object _ _ _ hl).1 (Nat.not_lt.mpr hnew)
  refine ⟨hhost, fun n obj hl' c hc => ?_, h.origin, ?_⟩
  · rcases h.host.claims_called hcalled hl' with ⟨hl, heq⟩ | ⟨-, heq⟩
    · rw [heq] at hc
      obtain ⟨u, hu, rfl, hid⟩ := mem_handles.mp (h.requests n obj hl c hc)
      refine mem_handles.mpr ⟨u, ?_, rfl, hid⟩
      show u ∈ life.handles
      rcases hcalled.handles with hsame | ⟨memory, hmore, -⟩ | ⟨d, lock, claims, real, i, rfl, hless⟩
      · rw [hsame]
        exact hu
      · rw [hmore]
        exact List.mem_append_left _ hu
      · rw [hless]
        obtain ⟨j, hj⟩ := List.mem_iff_getElem?.mp hu
        refine List.mem_eraseIdx_iff_getElem?.mpr ⟨j, ?_, hj⟩
        rintro rfl
        -- the closed handle has no requests
        obtain rfl : u.activeClaims.obj = obj :=
          Option.some.inj (((h.host.life.linked u hu).names .activeClaims).symm.trans hl)
        exact h.closable ha hset hj c hc hid.symm
    · rw [heq] at hc
      exact absurd hc List.not_mem_nil
  · rw [htable] at hreached
    exact hreached

theorem serviceOk_init : ServiceOk b .empty init where
  host := hostOk_init
  requests := nofun
  origin := .empty
  reached := .refl

theorem ServiceOk.step (h : ServiceOk b σ s) (ha : Allowed b s a) (hset : s.Settled a)
    (hs : HostSys.step b s a = some s') : ServiceOk b σ s' := by
  cases a with
  | life a =>
    obtain ⟨life, hcall, hlife, rfl⟩ := step_life hs
    exact h.call ha.1 ha.2 hset hcall hlife
  | region i a =>
    obtain ⟨memory, hget, hs⟩ := Option.bind_eq_some_iff.mp hs
    split_ifs at hs with hmade
    obtain ⟨t, ht, rfl⟩ := Option.map_eq_some_iff.mp hs
    exact h.section hget hmade (ha memory hget) ht

/-- The callers' side of a run. -/
def Settling (b : Build) (s : HostSys) (a : HostEvent) : Prop := Allowed b s a ∧ s.Settled a

theorem serviceOk_of_settling (hr : Reach (HostSys.step b) (Settling b) init s) :
    ServiceOk b .empty s :=
  hr.invariant serviceOk_init fun _ _ _ h hg hs => h.step hg.1 hg.2 hs

/-- **The machine refines the lock service**: from any state of a run to any later one, the service takes
steps of its own. -/
theorem refines_service (hr : Reach (HostSys.step b) (Settling b) init s)
    (hr' : Reach (HostSys.step b) (Settling b) s s') :
    Relation.ReflTransGen ServiceStep s.service s'.service := by
  have h := serviceOk_of_settling hr
  have hstart : ServiceOk b s.service s :=
    ⟨h.host, h.requests, inOrder_of_reached h.origin h.reached, .refl⟩
  exact (hr'.invariant hstart fun _ _ _ h hg hs => h.step hg.1 hg.2 hs).reached

/-- **No request outlives its handle**: whatever is held in a block, asked for by a sleeper or by one that
has woken up, is under the access id of exactly one live handle of the block. -/
theorem owner_of_request (hr : Reach (HostSys.step b) (Settling b) init s)
    (hm : memory ∈ s.life.handles) {c : MemoryClaim}
    (hc : c ∈ (s.claims memory.activeClaims.obj).requests) :
    ∃ i owner, s.life.handles[i]? = some owner ∧ owner.blockName = memory.blockName ∧
      owner.realMemory.accessId = c.procId ∧
        ∀ (j : Nat) (g : Memory), s.life.handles[j]? = some g → g.blockName = memory.blockName →
          g.realMemory.accessId = c.procId → j = i := by
  have h := serviceOk_of_settling hr
  have hl := (h.host.life.linked memory hm).names .activeClaims
  obtain ⟨owner, howner, hname, hid⟩ := mem_handles.mp (h.requests _ _ hl c hc)
  obtain ⟨i, hi⟩ := List.mem_iff_getElem?.mp howner
  refine ⟨i, owner, hi, hname, hid, fun j g hg hgname hgid => ?_⟩
  by_contra hne
  exact pairwise_of_ne h.host.ids.distinct (fun _ _ hxy hn he => hxy hn.symm he.symm) hg hi hne
    (hgname.trans hname.symm) (hgid.trans hid.symm)

/-! ## What the callers are told -/

theorem handlesOf_service (n : BlockName) : s.service.handlesOf n =
    (s.life.handles.filter fun u => u.blockName = n).map fun u => u.realMemory.accessId := by
  simp [LockService.handlesOf, service, List.filter_map, Function.comp_def]

/-- **`ipm_memory_get_info` adds up**: the claims it reports are those of the live handles of the block,
each with its own, and no two handles of a block report one access id. -/
theorem info_of_settling (hr : Reach (HostSys.step b) (Settling b) init s)
    (hm : memory ∈ s.life.handles) (proc : Proc) :
    ∃ info, ipmMemoryGetInfo memory ⟨s.life.kernel, proc⟩ = .ret (.ok info) ⟨s.life.kernel, proc⟩ ∧
      info.activeClaims = ((s.life.handles.filter fun u => u.blockName = info.name).map
        fun u => (s.held u).length).sum ∧
      ((s.life.handles.filter fun u => u.blockName = info.name).map
        fun u => u.realMemory.accessId).Nodup := by
  have h := serviceOk_of_settling hr
  have hok := inOrder_of_reached h.origin h.reached
  have hl : s.life.kernel.names (objectPath memory.blockName .activeClaims) =
      some memory.activeClaims.obj := (h.host.life.linked memory hm).names .activeClaims
  refine ⟨_, rfl, ?_, ?_⟩
  · show (s.claims memory.activeClaims.obj).list.count = _
    have hcard := hok.card_table memory.blockName
    rw [table_some hl, handlesOf_service, List.map_map] at hcard
    rw [← ClaimList.length_entries, (h.host.ledger hl).exact.length_eq]
    refine hcard.trans (congrArg List.sum (List.map_congr_left fun u hu => ?_))
    -- one claims object for all handles of the block
    obtain ⟨hu, hname⟩ := List.mem_filter.mp hu
    have hobj : u.activeClaims.obj = memory.activeClaims.obj := by
      have hlu : s.life.kernel.names (objectPath u.blockName .activeClaims) =
          some u.activeClaims.obj := (h.host.life.linked u hu).names .activeClaims
      rw [of_decide_eq_true hname, hl] at hlu
      exact (Option.some.inj hlu).symm
    show Multiset.countP (fun c : MemoryClaim => c.procId = u.realMemory.accessId)
      ((s.claims memory.activeClaims.obj).granted : Multiset MemoryClaim) = _
    rw [held, hobj, Multiset.coe_countP, List.countP_eq_length_filter]
  · rw [← handlesOf_service]
    exact hok.nodup_handlesOf _

/-- The last entry is the only one of `id`, and the list is as a removal wants it. -/
def lastOnly (t : ClaimSys) (id : UInt64) : Bool :=
  t.list.entries.getLast?.any (fun c => c.procId = id) &&
    t.list.entries.dropLast.all (fun c => c.procId ≠ id) &&
      decide (t.list.count < t.list.capacity ∧
        ∀ c ∈ t.list.entries, ∀ d ∈ t.list.entries, c.claimId = d.claimId → c.procId = d.procId)

theorem purgeable_of_lastOnly {t : ClaimSys} {id : UInt64} (h : lastOnly t id = true) :
    t.Purgeable b id := by
  rw [lastOnly, Bool.and_eq_true, Bool.and_eq_true, decide_eq_true_eq] at h
  obtain ⟨⟨hlast, hpre⟩, hcount, hkeep⟩ := h
  obtain ⟨c, hc, hid⟩ := (Option.any_eq_true _ _).mp hlast
  have hentries := (List.dropLast_append_getLast? c hc).symm
  exact .inr ⟨.inr hcount, hkeep, .inr (.inl ⟨t.list.entries.dropLast, c, hentries,
    of_decide_eq_true hid, fun e he => of_decide_eq_true (List.all_eq_true.mp hpre e he)⟩)⟩

/-- A test for `Settling` on runs in which whoever releases was the last to claim. -/
def settles (s : HostSys) : HostEvent → Bool
  | .region i (.releaseAll h _) => (s.life.handles[i]?).all fun memory =>
      lastOnly (s.claims memory.activeClaims.obj) h.accessId
  | .life (.close c lock claims real i) =>
    decide (s.life.Permitted (.close c lock claims real i)) &&
      (s.life.handles[i]?).all fun memory =>
        ((s.claims memory.activeClaims.obj).waiting ++ (s.claims memory.activeClaims.obj).woken).isEmpty
  | a => claimsBehind s a

theorem settling_of_settles (h : settles s a = true) : Settling b s a := by
  unfold settles at h
  split at h
  · rename_i i hd lock
    refine ⟨fun memory hm => ⟨trivial, trivial, fun _ => ?_⟩, trivial⟩
    rw [Option.mem_def.mp hm, Option.all_some] at h
    exact purgeable_of_lastOnly h
  · rename_i c lock claims real i
    rw [Bool.and_eq_true] at h
    refine ⟨⟨of_decide_eq_true h.1, trivial⟩, fun memory hm d hd => ?_⟩
    rw [Option.mem_def.mp hm, Option.all_some, List.isEmpty_iff] at h
    rw [h.2] at hd
    exact absurd hd List.not_mem_nil
  · rename_i hclose
    refine ⟨allowed_of_claimsBehind h, ?_⟩
    cases a with
    | region i a => trivial
    | life a =>
      cases a with
      | close c lock claims real i => exact absurd rfl (hclose c lock claims real i)
      | _ => trivial

/-- After `threeHandles` the third handle gives its region back and is closed. -/
def closesOne : List HostEvent :=
  threeHandles ++ [.region 2 (.releaseAll ⟨2, 4096, .readOnly⟩ .success),
    .life (.close LifeSys.willing .success .willing .willing 2)]

/-- Two handles are left, and what they hold. -/
def twoLeft (s : HostSys) : Bool :=
  match s.life.handles with
  | [g, h] => decide (s.held g = [⟨0, 1, .readOnly, 0, 32⟩] ∧ g.blockName = .a ∧ h.blockName ≠ .a)
  | _ => false

theorem exists_closesOne :
    ∃ s, Reach (HostSys.step ⟨false⟩) (Settling ⟨false⟩) init s ∧ s.twoLeft = true :=
  exists_reach_of_trace (g := settles) (t := twoLeft) closesOne
    (fun _ _ => settling_of_settles) (fun _ h => h) (by decide +kernel)

theorem refines_closesOne :
    ∃ s : HostSys, s.twoLeft = true ∧ Relation.ReflTransGen ServiceStep init.service s.service := by
  obtain ⟨s, hr, htwo⟩ := exists_closesOne
  exact ⟨s, htwo, refines_service .init hr⟩

theorem owner_closesOne :
    ∃ (s : HostSys) (memory : Memory) (c : MemoryClaim), memory ∈ s.life.handles ∧
      c ∈ (s.claims memory.activeClaims.obj).requests ∧
        ∃ i owner, s.life.handles[i]? = some owner ∧ owner.blockName = memory.blockName ∧
          owner.realMemory.accessId = c.procId ∧
            ∀ (j : Nat) (g : Memory), s.life.handles[j]? = some g → g.blockName = memory.blockName →
              g.realMemory.accessId = c.procId → j = i := by
  obtain ⟨s, hr, htwo⟩ := exists_closesOne
  unfold twoLeft at htwo
  split at htwo
  · rename_i g h heq
    have hheld := (of_decide_eq_true htwo).1
    have hm : g ∈ s.life.handles := heq ▸ List.mem_cons_self ..
    have hc : ⟨0, 1, .readOnly, 0, 32⟩ ∈ s.held g := hheld ▸ List.mem_singleton_self _
    have hreq := ClaimSys.mem_requests.mpr (.inl (mem_held.mp hc).1)
    exact ⟨s, g, _, hm, hreq, owner_of_request hr hm hreq⟩
  · cases htwo

theorem info_closesOne :
    ∃ (s : HostSys) (memory : Memory) (info : MemoryInfo), memory ∈ s.life.handles ∧
      ipmMemoryGetInfo memory ⟨s.life.kernel, .initial⟩ = .ret (.ok info) ⟨s.life.kernel, .initial⟩ ∧
      info.activeClaims = ((s.life.handles.filter fun u => u.blockName = info.name).map
        fun u => (s.held u).length).sum ∧
      ((s.life.handles.filter fun u => u.blockName = info.name).map
        fun u => u.realMemory.accessId).Nodup := by
  obtain ⟨s, hr, htwo⟩ := exists_closesOne
  unfold twoLeft at htwo
  split at htwo
  · rename_i g h heq
    have hm : g ∈ s.life.handles := heq ▸ List.mem_cons_self ..
    obtain ⟨info, hinfo⟩ := info_of_settling hr hm .initial
    exact ⟨s, g, info, hm, hinfo⟩
  · cases htwo

end HostSys

end Ipm
