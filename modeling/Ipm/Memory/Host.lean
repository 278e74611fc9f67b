import Ipm.Claim.Actors
import Ipm.Memory.Carry
import Ipm.Memory.FailedGrow

/-!
# All of it on one machine

Any number of blocks, handles and processes. `Memory/Lifetime.lean` has the whole calls that make and
close handles, `Claim/System.lean` the critical sections on one claim list. Here they are steps of one
system: a critical section is one on the list in the claims object of some handle, made with that
handle's access id, size and access mode, and in between blocks come and go.

The two halves fit together (`reach_of_keeping`): what happens to the list of a block is a run of the
claim system from `claim_list_init` on, whoever opens and closes handles of this block or of others
meanwhile. And the access ids, on which the claims rest, are never given to two handles
(`exclusive_of_allowed`).
-/

set_option autoImplicit false

namespace Ipm

open Lib

/-! ## Access ids over whole calls -/

/-- The access id of a new handle is one that its block had not given out, and will not again. -/
structure Memory.NewId (memory : Memory) (k k' : Kernel) : Prop where
  old : ∀ obj, k.names (objectPath memory.blockName .realMemory) = some obj →
    (k.header obj).idCounter ≤ memory.realMemory.accessId
  new : memory.realMemory.accessId < (k'.header memory.realMemory.obj).idCounter

namespace LifeSys

variable {b : Build} {s s' : LifeSys} {a : LifeEvent}

/-- An opener finds an access id left. -/
def Roomy (s : LifeSys) : LifeEvent → Prop
  | .open _ _ n _ => s.kernel.IdRoom n
  | _ => True

instance (s : LifeSys) : (a : LifeEvent) → Decidable (s.Roomy a)
  | .open _ _ n _ => inferInstanceAs (Decidable (s.kernel.IdRoom n))
  | .create _ _ _ _ _ => inferInstanceAs (Decidable True)
  | .close _ _ _ _ _ => inferInstanceAs (Decidable True)
  | .fork _ => inferInstanceAs (Decidable True)
  | .clean _ _ _ _ => inferInstanceAs (Decidable True)
  | .regions _ _ => inferInstanceAs (Decidable True)

/-- The critical sections of the region calls, as one step. -/
def Regions : LifeEvent → Prop
  | .regions _ _ => True
  | _ => False

/-- What a whole call does to the kernel and to the handles. -/
structure Called (s : LifeSys) (a : LifeEvent) (s' : LifeSys) : Prop where
  carries : s.kernel.Carries s'.kernel
  handles : s'.handles = s.handles ∨
    (∃ memory, s'.handles = s.handles ++ [memory] ∧ memory.NewId s.kernel s'.kernel) ∨
    ∃ c lock claims real i, a = .close c lock claims real i ∧ s'.handles = s.handles.eraseIdx i

theorem called_acquire {p : Call Memory} {w : World}
    (h : Prog.Post p w
      (fun memory w' => s.kernel.Carries w'.kernel ∧ memory.NewId s.kernel w'.kernel)
      (fun _ w' => s.kernel.Carries w'.kernel) fun _ w' => s.kernel.Carries w'.kernel) :
    Called s a (s.acquire (p w)) := by
  cases hout : p w with
  | ret r w' =>
    cases r with
    | ok memory => exact ⟨(h.of_ret hout).1, .inr (.inl ⟨memory, rfl, (h.of_ret hout).2⟩)⟩
    | error e => exact ⟨h.of_error hout, .inl rfl⟩
  | stop why w' => exact ⟨h.of_stop hout, .inl rfl⟩

/-- A fork, and whatever leaves kernel and handles alone. -/
theorem called_same {copies : List Memory} {k : Kernel} (h : LifeOk s) (hk : k = s.kernel) :
    Called s a ⟨k, s.handles, copies⟩ := by
  rw [hk]
  exact ⟨.refl h.counted, .inl rfl⟩

theorem LifeOk.called (h : LifeOk s) (ha : s.Permitted a) (hroom : s.Roomy a)
    (hcall : ¬ Regions a) (hs : LifeSys.step b s a = some s') : Called s a s' := by
  cases a with
  | create c os blockSize n access =>
    cases hs
    have hpost := (Kernel.Carries.callFrame n).create b c.ctx (w := ⟨s.kernel, c.proc⟩) blockSize
      access h.counted ha
    refine called_acquire (hpost.mono ?_ (fun _ _ hq => hq) fun _ _ hq => hq)
    rintro memory w' ⟨hcarry, rfl, hfree, hid, hnew⟩
    refine ⟨hcarry, fun obj hl => ?_, ?_⟩
    · rw [hfree] at hl
      cases hl
    · rw [hid, hnew]
      decide
  | «open» c os n access =>
    cases hs
    have hpost := (Kernel.Carries.callFrame n).open b c.ctx (w := ⟨s.kernel, c.proc⟩) access
      h.counted ha.1 (fun _ => ha.2) hroom
    refine called_acquire (hpost.mono ?_ (fun _ _ hq => hq) fun _ _ hq => hq)
    rintro memory w' ⟨hcarry, rfl, hl, hid, hnew⟩
    refine ⟨hcarry, fun obj hl' => ?_, ?_⟩
    · obtain rfl := Option.some.inj (hl.symm.trans hl')
      rw [hid]
      exact UInt64.le_refl _
    · have hlt : (s.kernel.header memory.realMemory.obj).idCounter.toNat + 1 < 2 ^ 64 :=
        hroom memory.realMemory.obj hl
      rw [hid, hnew, UInt64.lt_iff_toNat_lt, UInt64.toNat_add]
      exact (Nat.lt_succ_self _).trans_eq (Nat.mod_eq_of_lt hlt).symm
  | close c lock claims real i =>
    obtain ⟨memory, hget, rfl⟩ := Option.map_eq_some_iff.mp hs
    obtain ⟨hclaims, hreal, hnone⟩ := ha
    have hl := h.linked memory (List.mem_of_getElem? hget)
    have hC : Counted s.kernel
        ((counts ⟨s.kernel, s.handles.eraseIdx i, s.copies⟩).handle memory.blockName) := by
      rw [counts_eraseIdx s.kernel s.copies hget]
      exact h.counted
    have hpost := (Kernel.Carries.callFrame memory.blockName).close b c.ctx lock
      (w := ⟨s.kernel, c.proc⟩) hC hl hclaims hreal (hnone memory hget)
    cases hout : ipmMemoryClose b c.ctx lock claims real memory ⟨s.kernel, c.proc⟩ with
    | ret r w =>
      refine ⟨?_, .inr (.inr ⟨_, _, _, _, i, rfl, rfl⟩)⟩
      cases r with
      | ok u => exact hpost.of_ret hout
      | error e => exact hpost.of_error hout
    | stop why w => exact ⟨hpost.of_stop hout, .inl rfl⟩
  | fork i =>
    obtain ⟨memory, -, rfl⟩ := Option.map_eq_some_iff.mp hs
    exact called_same h rfl
  | clean c claims real j =>
    obtain ⟨memory, -, rfl⟩ := Option.map_eq_some_iff.mp hs
    have hpost := ipmMemoryClean_keeps b claims real memory ⟨s.kernel, c.proc⟩
    cases hout : ipmMemoryClean b claims real memory ⟨s.kernel, c.proc⟩ with
    | ret r w =>
      refine called_same h ?_
      cases r with
      | ok u => exact hpost.of_ret hout
      | error e => exact hpost.of_error hout
    | stop why w => exact called_same h (hpost.of_stop hout)
  | regions i list => exact absurd trivial hcall

/-- Every handle has an access id of its own, below its block's counter. -/
structure IdsOk (s : LifeSys) : Prop where
  below : ∀ memory ∈ s.handles,
    memory.realMemory.accessId < (s.kernel.header memory.realMemory.obj).idCounter
  distinct : s.handles.Pairwise fun g h =>
    g.blockName = h.blockName → g.realMemory.accessId ≠ h.realMemory.accessId

theorem IdsOk.called (h : IdsOk s) (hok : LifeOk s) (hok' : LifeOk s') (hs : Called s a s') :
    IdsOk s' := by
  -- the counter of a handle that stays has not gone back
  have hstays : ∀ memory ∈ s.handles, memory ∈ s'.handles →
      memory.realMemory.accessId < (s'.kernel.header memory.realMemory.obj).idCounter := by
    intro memory hm hm'
    have hl := (hok.linked memory hm).names .realMemory
    rcases hs.carries.idCounter _ _ ((hok'.linked memory hm').names .realMemory) with
      ⟨-, hle⟩ | hnew
    · exact UInt64.lt_of_lt_of_le (h.below memory hm) hle
    · exact absurd (hok.counted.object _ _ _ hl).1 (Nat.not_lt.mpr hnew)
  have hless : s'.handles.Sublist s.handles → IdsOk s' := fun hsub =>
    ⟨fun memory hm => hstays memory (hsub.subset hm) hm, h.distinct.sublist hsub⟩
  rcases hs.handles with heq | ⟨memory, heq, hid⟩ | ⟨-, -, -, -, i, -, heq⟩
  · exact hless (heq ▸ .refl _)
  · constructor
    · intro u hu
      have hu' := hu
      rw [heq] at hu'
      rcases List.mem_append.mp hu' with hold | hnew
      · exact hstays u hold hu
      · obtain rfl := List.mem_singleton.mp hnew
        exact hid.new
    · rw [heq, List.pairwise_append]
      refine ⟨h.distinct, List.pairwise_singleton _ _, fun u hu v hv hname hids => ?_⟩
      obtain rfl := List.mem_singleton.mp hv
      have hl : s.kernel.names (objectPath v.blockName .realMemory) = some u.realMemory.obj := by
        rw [← hname]
        exact (hok.linked u hu).names .realMemory
      have hlt := UInt64.lt_of_lt_of_le (h.below u hu) (hid.old _ hl)
      rw [hids] at hlt
      exact UInt64.lt_irrefl _ hlt
  · exact hless (heq ▸ List.eraseIdx_sublist _ _)

end LifeSys

/-! ## The machine -/

/-- What a claims object has beside its list: a `ClaimSys` without the list. -/
structure Requests where
  waiting : List MemoryClaim
  woken : List MemoryClaim
  signals : Nat
  granted : List MemoryClaim

def Requests.none : Requests := { waiting := [], woken := [], signals := 0, granted := [] }

structure HostSys where
  life : LifeSys
  -- by claims object
  requests : Nat → Requests

inductive HostEvent where
  | life (a : LifeEvent)
  /-- A critical section of a region call of handle `i`. -/
  | region (i : Nat) (a : ClaimEvent)

/-- What the call reads of its handle is what is in `h`. -/
def ClaimEvent.MadeWith (h : Handle) : ClaimEvent → Prop
  | .claim h' _ _ _ _ => h' = h
  | .releaseRegion h' _ _ => h' = h
  | .releaseAll h' _ => h' = h
  -- a close is a whole call
  | .close _ _ => False
  | .recheck _ => True
  | .waitFails _ => True
  | .spurious _ => True
  | .signal _ => True
  | .removeAll _ => True

instance (h : Handle) : (a : ClaimEvent) → Decidable (a.MadeWith h)
  | .claim h' _ _ _ _ => inferInstanceAs (Decidable (h' = h))
  | .releaseRegion h' _ _ => inferInstanceAs (Decidable (h' = h))
  | .releaseAll h' _ => inferInstanceAs (Decidable (h' = h))
  | .close _ _ => inferInstanceAs (Decidable False)
  | .recheck _ => inferInstanceAs (Decidable True)
  | .waitFails _ => inferInstanceAs (Decidable True)
  | .spurious _ => inferInstanceAs (Decidable True)
  | .signal _ => inferInstanceAs (Decidable True)
  | .removeAll _ => inferInstanceAs (Decidable True)

namespace HostSys

def init : HostSys := { life := .init, requests := fun _ => .none }

/-- The claim system of a claims object. -/
def claims (s : HostSys) (obj : Nat) : ClaimSys :=
  { list := (s.life.kernel.objs obj).list
    waiting := (s.requests obj).waiting
    woken := (s.requests obj).woken
    signals := (s.requests obj).signals
    granted := (s.requests obj).granted }

def put (s : HostSys) (obj : Nat) (t : ClaimSys) : HostSys :=
  { life := { s.life with
      kernel := s.life.kernel.modifyObj obj fun o => { o with list := t.list } }
    requests := Function.update s.requests obj ⟨t.waiting, t.woken, t.signals, t.granted⟩ }

def step (b : Build) (s : HostSys) : HostEvent → Option HostSys
  -- these are steps of their own here
  | .life (.regions _ _) => none
  | .life a => (LifeSys.step b s.life a).map fun life => { s with life := life }
  | .region i a =>
    (s.life.handles[i]?).bind fun memory =>
      if a.MadeWith memory.handle then
        (ClaimSys.step b (s.claims memory.activeClaims.obj) a).map (s.put memory.activeClaims.obj)
      else none

/-- A critical section in range, of the owner, and clear of the short shifts. -/
def Orderly (b : Build) (s : ClaimSys) (a : ClaimEvent) : Prop :=
  s.Owned a ∧ a.InRange ∧ s.Clean b a

/-- The whole calls are as before, access ids do not run out, and the critical sections keep to `G`. -/
def Keeping (G : ClaimSys → ClaimEvent → Prop) (s : HostSys) : HostEvent → Prop
  | .life a => s.life.Permitted a ∧ s.life.Roomy a
  | .region i a => ∀ memory ∈ s.life.handles[i]?, G (s.claims memory.activeClaims.obj) a

abbrev Allowed (b : Build) : HostSys → HostEvent → Prop := Keeping (Orderly b)

/-- What a handle was granted and has not given back. -/
def held (s : HostSys) (memory : Memory) : List MemoryClaim :=
  (s.claims memory.activeClaims.obj).granted.filter fun c => c.procId = memory.realMemory.accessId

variable {b : Build} {s s' : HostSys} {a : HostEvent} {memory : Memory} {obj i : Nat}
variable {G : ClaimSys → ClaimEvent → Prop}

/-! ## What one step keeps -/

structure HostOk (b : Build) (G : ClaimSys → ClaimEvent → Prop) (s : HostSys) : Prop where
  life : s.life.LifeOk
  ids : s.life.IdsOk
  claims : ∀ n obj, s.life.kernel.names (objectPath n .activeClaims) = some obj →
    Reach (ClaimSys.step b) G (.init zeroList realClaimCapacity) (s.claims obj)
  -- nobody has asked for anything in an object that is not there yet
  unborn : ∀ obj, s.life.kernel.fresh ≤ obj → s.requests obj = .none

theorem hostOk_init : HostOk b G init where
  life := LifeSys.lifeOk_init
  ids := ⟨nofun, List.Pairwise.nil⟩
  claims := nofun
  unborn := fun _ _ => rfl

/-- A whole call leaves the claim systems there are where they are, and may start a new one. -/
theorem HostOk.claims_called {a : LifeEvent} {life : LifeSys} {n : BlockName} (h : HostOk b G s)
    (hcalled : LifeSys.Called s.life a life)
    (hl : life.kernel.names (objectPath n .activeClaims) = some obj) :
    s.life.kernel.names (objectPath n .activeClaims) = some obj ∧
        ({ s with life := life } : HostSys).claims obj = s.claims obj ∨
      s.life.kernel.fresh ≤ obj ∧
        ({ s with life := life } : HostSys).claims obj = .init zeroList realClaimCapacity := by
  rcases hcalled.carries.list n obj hl with ⟨hl', heq⟩ | ⟨hnew, heq⟩
  · refine .inl ⟨hl', ?_⟩
    rw [HostSys.claims, HostSys.claims, heq]
  · refine .inr ⟨hnew, ?_⟩
    rw [HostSys.claims, heq, h.unborn obj hnew]
    rfl

theorem HostOk.call {a : LifeEvent} {life : LifeSys} (h : HostOk b G s) (ha : s.life.Permitted a)
    (hroom : s.life.Roomy a) (hcall : ¬ LifeSys.Regions a)
    (hs : LifeSys.step b s.life a = some life) : HostOk b G { s with life := life } := by
  have hlife : life.LifeOk := h.life.step ha hs
  have hcalled := h.life.called ha hroom hcall hs
  refine ⟨hlife, h.ids.called h.life hlife hcalled, fun n obj hl => ?_, fun obj hle => ?_⟩
  · rcases h.claims_called hcalled hl with ⟨hl', heq⟩ | ⟨-, heq⟩
    · rw [heq]
      exact h.claims n obj hl'
    · rw [heq]
      exact .init
  · exact h.unborn obj (hcalled.carries.fresh.trans hle)

theorem claims_put_self (t : ClaimSys) : (s.put obj t).claims obj = t := by
  simp [claims, put]

theorem claims_put_ne (t : ClaimSys) (hne : i ≠ obj) : (s.put obj t).claims i = s.claims i := by
  simp [claims, put, hne]

theorem header_put (t : ClaimSys) :
    (s.put obj t).life.kernel.header i = s.life.kernel.header i := by
  rw [put, Kernel.header, Kernel.header]
  by_cases hi : i = obj
  · rw [hi, Kernel.objs_modifyObj_self]
  · rw [Kernel.objs_modifyObj_ne _ _ hi]

/-- A critical section is a step of the claim system of its handle, and of no other. -/
theorem HostOk.section {a : ClaimEvent} {t : ClaimSys} (h : HostOk b G s)
    (hget : s.life.handles[i]? = some memory)
    (ha : G (s.claims memory.activeClaims.obj) a)
    (hs : ClaimSys.step b (s.claims memory.activeClaims.obj) a = some t) :
    HostOk b G (s.put memory.activeClaims.obj t) := by
  have hl : s.life.kernel.names (objectPath memory.blockName .activeClaims) =
      some memory.activeClaims.obj :=
    (h.life.linked memory (List.mem_of_getElem? hget)).names .activeClaims
  have hlife : (s.put memory.activeClaims.obj t).life.LifeOk := by
    refine h.life.step (a := .regions i t.list) (b := b) trivial ?_
    rw [LifeSys.step, hget]
    rfl
  refine ⟨hlife, ⟨fun u hu => ?_, h.ids.distinct⟩, fun n obj hl' => ?_, fun obj hle => ?_⟩
  · rw [header_put]
    exact h.ids.below u hu
  · by_cases ho : obj = memory.activeClaims.obj
    · rw [ho, claims_put_self]
      exact (h.claims _ _ hl).next ha hs
    · rw [claims_put_ne t ho]
      exact h.claims n obj hl'
  · have hlt := (h.life.counted.object _ _ _ hl).1
    exact (Function.update_of_ne (hlt.trans_le hle).ne' _ _).trans (h.unborn obj hle)

theorem step_life_eq {a : LifeEvent} (hcall : ¬ LifeSys.Regions a) : HostSys.step b s (.life a) =
    (LifeSys.step b s.life a).map fun life => { s with life := life } := by
  cases a with
  | regions i list => exact absurd trivial hcall
  | _ => rfl

theorem step_life {a : LifeEvent} (hs : HostSys.step b s (.life a) = some s') :
    ∃ life, ¬ LifeSys.Regions a ∧ LifeSys.step b s.life a = some life ∧
      s' = { s with life := life } := by
  have hcall : ¬ LifeSys.Regions a := by
    intro hregions
    cases a with
    | regions i list => cases hs
    | _ => exact hregions
  rw [step_life_eq hcall] at hs
  obtain ⟨life, hlife, rfl⟩ := Option.map_eq_some_iff.mp hs
  exact ⟨life, hcall, hlife, rfl⟩

theorem HostOk.step (h : HostOk b G s) (ha : Keeping G s a) (hs : HostSys.step b s a = some s') :
    HostOk b G s' := by
  cases a with
  | life a =>
    obtain ⟨life, hcall, hlife, rfl⟩ := step_life hs
    exact h.call ha.1 ha.2 hcall hlife
  | region i a =>
    obtain ⟨memory, hget, hs⟩ := Option.bind_eq_some_iff.mp hs
    split at hs
    · obtain ⟨t, ht, rfl⟩ := Option.map_eq_some_iff.mp hs
      exact h.section hget (ha memory hget) ht
    · cases hs

/-! ## Whole runs -/

/-- **The two halves compose**: in every run of the machine, what has happened to the list of a live
handle is a run of its claim system alone, from `claim_list_init` on, and what the critical sections keep
to on the machine they keep to there. -/
theorem reach_of_keeping (hr : Reach (HostSys.step b) (Keeping G) init s)
    (hm : memory ∈ s.life.handles) :
    Reach (ClaimSys.step b) G (.init zeroList realClaimCapacity) (s.claims memory.activeClaims.obj) := by
  have hok : HostOk b G s := hr.invariant hostOk_init fun _ _ _ h ha hs => h.step ha hs
  exact hok.claims _ _ ((hok.life.linked memory hm).names .activeClaims)

theorem mem_held {c : MemoryClaim} : c ∈ s.held memory ↔
    c ∈ (s.claims memory.activeClaims.obj).granted ∧ c.procId = memory.realMemory.accessId := by
  simp [held]

/-- **Regions are exclusive on the whole machine**: where regions of two live handles share a byte of one
memory, whoever has the handles and whenever they were opened, both handles only read it. -/
theorem exclusive_of_allowed (hr : Reach (HostSys.step b) (Allowed b) init s) {i j : Nat}
    {g h : Memory} (hg : s.life.handles[i]? = some g) (hh : s.life.handles[j]? = some h)
    (hne : i ≠ j) (hobj : g.realMemory.obj = h.realMemory.obj) {c d : MemoryClaim}
    (hc : c ∈ s.held g) (hd : d ∈ s.held h) (hov : c.Overlaps d) :
    c.access = .readOnly ∧ d.access = .readOnly := by
  have hok : HostOk b (Orderly b) s := hr.invariant hostOk_init fun _ _ _ h ha hs => h.step ha hs
  have hlg := hok.life.linked g (List.mem_of_getElem? hg)
  have hlh := hok.life.linked h (List.mem_of_getElem? hh)
  -- one real memory has one name, and its handles one claims object
  have hname : h.blockName = g.blockName := by
    have hreal : s.life.kernel.names (objectPath h.blockName .realMemory) =
        some g.realMemory.obj := by
      rw [hobj]
      exact hlh.names .realMemory
    exact (hok.life.counted.unique (hlg.names .realMemory) hreal).1
  have hclaims : g.activeClaims.obj = h.activeClaims.obj := by
    have hl : s.life.kernel.names (objectPath g.blockName .activeClaims) =
        some h.activeClaims.obj := by
      rw [← hname]
      exact hlh.names .activeClaims
    exact Option.some.inj ((hlg.names .activeClaims).symm.trans hl)
  have hids : g.realMemory.accessId ≠ h.realMemory.accessId :=
    pairwise_of_ne hok.ids.distinct (fun _ _ hxy h he => hxy h.symm he.symm) hg hh hne hname.symm
  have hrun := hok.claims _ _ (hlg.names .activeClaims)
  obtain ⟨hc, hcid⟩ := mem_held.mp hc
  obtain ⟨hd, hdid⟩ := mem_held.mp hd
  rw [← hclaims] at hd
  have hex := ClaimSys.mutualExclusion_of_clean (by decide) hrun c hc d hd (hcid ▸ hdid ▸ hids)
  constructor
  · cases hacc : c.access with
    | readOnly => rfl
    | readWrite => exact absurd hov (hex (.inl hacc))
  · cases hacc : d.access with
    | readOnly => rfl
    | readWrite => exact absurd hov (hex (.inr hacc))

/-- A test for `Allowed` on runs that only claim. -/
def claimsBehind (s : HostSys) : HostEvent → Bool
  | .life a => decide (s.life.Permitted a ∧ s.life.Roomy a)
  | .region i (.claim h _ _ offset count) =>
    decide (offset.toNat + count.toNat ≤ h.size.toNat) && (s.life.handles[i]?).all fun memory =>
      (s.claims memory.activeClaims.obj).list.entries.all fun e => decide (e.offset ≤ offset)
  | .region _ _ => false

theorem allowed_of_claimsBehind (h : claimsBehind s a = true) : Allowed b s a := by
  cases a with
  | life a =>
    rw [claimsBehind, decide_eq_true_eq] at h
    exact h
  | region i a =>
    cases a with
    | claim hd lock access offset count =>
      rw [claimsBehind, Bool.and_eq_true] at h
      intro memory hm
      rw [Option.mem_def.mp hm, Option.all_some] at h
      refine ⟨trivial, of_decide_eq_true h.1, fun _ _ _ e he => ?_⟩
      exact of_decide_eq_true (List.all_eq_true.mp h.2 e he)
    | _ => cases h

/-- A block with two handles and a block with one, and a region claimed with each. -/
def threeHandles : List HostEvent :=
  [.life (.create LifeSys.willing LifeSys.createWilling 1 .a .readWrite),
   .region 0 (.claim ⟨1, 4096, .readWrite⟩ .success .readOnly 0 32),
   .life (.create LifeSys.willing LifeSys.createWilling 1 .b .readWrite),
   .region 1 (.claim ⟨1, 4096, .readWrite⟩ .success .readWrite 0 32),
   .life (.open LifeSys.willing LifeSys.openWilling .a .readOnly),
   .region 2 (.claim ⟨2, 4096, .readOnly⟩ .success .readOnly 16 32)]

/-- The first handle and the third show one memory, and read from it. -/
def twoRead (s : HostSys) : Bool :=
  match s.life.handles with
  | [g, _, h] => decide (g.realMemory.obj = h.realMemory.obj ∧
      s.held g = [⟨0, 1, .readOnly, 0, 32⟩] ∧ s.held h = [⟨1, 2, .readOnly, 16, 32⟩])
  | _ => false

theorem exists_threeHandles :
    ∃ s, Reach (HostSys.step ⟨false⟩) (Allowed ⟨false⟩) init s ∧ s.twoRead = true :=
  exists_reach_of_trace (g := claimsBehind) (t := twoRead) threeHandles
    (fun _ _ => allowed_of_claimsBehind) (fun _ h => h) (by decide +kernel)

theorem twoRead_cases (h : s.twoRead = true) : ∃ g h, s.life.handles[0]? = some g ∧
    s.life.handles[2]? = some h ∧ g.realMemory.obj = h.realMemory.obj ∧
      s.held g = [⟨0, 1, .readOnly, 0, 32⟩] ∧ s.held h = [⟨1, 2, .readOnly, 16, 32⟩] := by
  unfold twoRead at h
  split at h
  · rename_i g _ k heq
    rw [heq]
    exact ⟨g, k, rfl, rfl, of_decide_eq_true h⟩
  · cases h

theorem reach_threeHandles :
    ∃ s : HostSys, ∃ memory ∈ s.life.handles, (s.held memory).length = 1 ∧
      Reach (ClaimSys.step ⟨false⟩) (Orderly ⟨false⟩) (.init zeroList realClaimCapacity)
        (s.claims memory.activeClaims.obj) := by
  obtain ⟨s, hr, htwo⟩ := exists_threeHandles
  obtain ⟨g, -, hg, -, -, hheld, -⟩ := twoRead_cases htwo
  have hm := List.mem_of_getElem? hg
  exact ⟨s, g, hm, by rw [hheld]; rfl, reach_of_keeping hr hm⟩

theorem exclusive_threeHandles :
    ∃ (s : HostSys) (g h : Memory) (c d : MemoryClaim), s.life.handles[0]? = some g ∧
      s.life.handles[2]? = some h ∧ c ∈ s.held g ∧ d ∈ s.held h ∧ c.Overlaps d ∧
        c.access = .readOnly ∧ d.access = .readOnly := by
  obtain ⟨s, hr, htwo⟩ := exists_threeHandles
  obtain ⟨g, h, hg, hh, hobj, hheld, hheld'⟩ := twoRead_cases htwo
  have hc : ⟨0, 1, .readOnly, 0, 32⟩ ∈ s.held g := hheld ▸ List.mem_singleton_self _
  have hd : ⟨1, 2, .readOnly, 16, 32⟩ ∈ s.held h := hheld' ▸ List.mem_singleton_self _
  have hov : MemoryClaim.Overlaps ⟨0, 1, .readOnly, 0, 32⟩ ⟨1, 2, .readOnly, 16, 32⟩ :=
    ⟨20, ⟨by decide, by decide⟩, ⟨by decide, by decide⟩⟩
  exact ⟨s, g, h, _, _, hg, hh, hc, hd, hov,
    exclusive_of_allowed hr hg hh (by decide) hobj hc hd hov⟩

end HostSys

end Ipm
