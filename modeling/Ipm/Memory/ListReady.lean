import Ipm.Memory.Pairing

/-!
# A handle's claim list

A handle is only of use if the claim list behind it has been set up and not yet taken down. Creation
builds claims, list and real memory in this order, opening takes real memory first, and closing
drops claims first. While a task is `Creating`, its claims object is linked but its list may be in
any state; nobody can get at it as long as there is no real memory of that name to open first.

That is what can go wrong. A close drops the claims object *before* the real memory, so between the
two a create finds the claims path free while the real memory is still linked, and an open that
already has the real memory picks up the new, unfinished claims object. `Orderly` is the condition
that no create gets its claims object in such a state.
-/

set_option autoImplicit false

namespace Ipm

open Lib

/-- A task that refers to a claims object without real memory: a create on its way, or on its way
back. -/
def Phase.Creating (p : Phase) : Prop :=
  (p.held .activeClaims).isSome ∧ p.held .realMemory = none

/-- A create that has not made its claims object yet. -/
def Phase.begins : Phase → Bool
  | create _ _ => true
  | _ => false

/-! ## What a move leaves alone -/

section Frame

variable {n m : BlockName} {p p' : Phase} {k k' : Kernel} {H : RefCounts} {obj : Nat}

/-- The paths of another block. -/
theorem Move.names_other {kind : MemoryBlock} (h : Move n p k p' k') (hm : m ≠ n) :
    k'.names (objectPath m kind) = k.names (objectPath m kind) := by
  have hpath : ∀ j, objectPath m kind ≠ objectPath n j := fun j he =>
    hm (objectPath_injective he).1
  cases h.effect with
  | keep _ hk => rw [hk.names]
  | gain j _ _ hk =>
    rcases hk with ⟨size, access, hc⟩ | ⟨-, access, ho⟩
    · rw [hc.kernel, Kernel.names_build]
      exact if_neg (hpath j)
    · rw [ho.kernel]
      rfl
  | lose j _ _ hk =>
    rw [hk, Kernel.closed]
    split
    · exact Function.update_of_ne (hpath j) _ _
    · rfl

/-- A close leaves the lists of the objects that stay linked. -/
theorem Counted.listSync_closed {j kind : MemoryBlock} {block i : Nat} {cell : Cell → Cell}
    (h : Counted k H) (hl : k.names (objectPath n j) = some block)
    (hi : k.names (objectPath m kind) = some i)
    (hi' : (k.closed (objectPath n j) block cell).names (objectPath m kind) = some i) :
    ((k.closed (objectPath n j) block cell).objs i).listSync = (k.objs i).listSync := by
  unfold Kernel.closed at hi' ⊢
  split
  · rename_i hlast
    rw [if_pos hlast] at hi'
    by_cases hib : i = block
    · -- the object that was closed last is not linked any more
      subst hib
      obtain ⟨rfl, rfl⟩ := h.unique hl hi
      rw [Kernel.names_unlink_self] at hi'
      cases hi'
    · rw [Kernel.objs_unlink, Kernel.objs_modifyObj_ne _ _ hib]
  · by_cases hib : i = block
    · subst hib
      rw [Kernel.objs_modifyObj_self]
      rfl
    · rw [Kernel.objs_modifyObj_ne _ _ hib]

/-- The list of an object that stays linked, unless it is the one the move is about. -/
theorem Move.listSync (h : Move n p k p' k') (hC : Counted k H) (hl : p.Linked k n)
    (hi : k.names (objectPath m .activeClaims) = some obj)
    (hi' : k'.names (objectPath m .activeClaims) = some obj)
    (hne : m ≠ n ∨ ¬ p.Creating) : (k'.objs obj).listSync = (k.objs obj).listSync := by
  have hlt : obj < k.fresh := (hC.object m .activeClaims obj hi).1
  have hother : ∀ claims : SharedMemoryBlock, p.held .activeClaims = some claims → p.Creating →
      obj ≠ claims.obj := by
    intro claims hclaims hcr he
    rcases hne with hm | hcr'
    · exact hm (hC.unique (he ▸ (hl _ _ hclaims).1) hi).1
    · exact hcr' hcr
  cases h with
  | createFailed h => exact h.listSync obj hlt
  | claimsCreated h => rw [h.kernel, Kernel.objs_build_ne _ _ _ hlt.ne]
  | listFailed h => exact h.listSync obj hlt
  | listReady => rw [Kernel.objs_modifyObj_ne _ _ (hother _ rfl ⟨rfl, rfl⟩)]
  | realFailed h => exact h.listSync obj hlt
  | realCreated h => rw [h.kernel, Kernel.objs_build_ne _ _ _ hlt.ne]
  | listGone => rw [Kernel.objs_modifyObj_ne _ _ (hother _ rfl ⟨rfl, rfl⟩)]
  | claimsDropped => exact hC.listSync_closed (hl .activeClaims _ rfl).1 hi hi'
  | openFailed h => exact h.listSync obj hlt
  | @realOpened access real _ _ h =>
    rw [h.kernel]
    by_cases hobj : obj = real.obj
    · subst hobj; rw [Kernel.objs_modifyObj_self]; rfl
    · rw [Kernel.objs_modifyObj_ne _ _ hobj]
  | claimsNotOpened h => exact h.listSync obj hlt
  | @claimsOpened real claims _ _ h =>
    rw [h.kernel]
    by_cases hobj : obj = claims.obj
    · subst hobj; rw [Kernel.objs_modifyObj_self]; rfl
    · rw [Kernel.objs_modifyObj_ne _ _ hobj]
  | realDropped => exact hC.listSync_closed (hl .realMemory _ rfl).1 hi hi'
  | released h => exact h.listSync obj hlt
  | claimsClosed => exact hC.listSync_closed (hl .activeClaims _ rfl).1 hi hi'
  | realClosed => exact hC.listSync_closed (hl .realMemory _ rfl).1 hi hi'
  | idle _ h => exact h.listSync obj hlt

end Frame

namespace TaskSys

variable {b : Build} {s s' : TaskSys} {i : Nat} {t : Task} {p' : Phase} {k' : Kernel}

/-- No create gets its claims object while real memory of that name is linked. -/
def Orderly (s : TaskSys) : TaskEvent → Prop
  | .step i _ => ∀ t ∈ s.tasks[i]?, t.phase.begins = true →
      s.kernel.names (objectPath t.name .activeClaims) = none →
        s.kernel.names (objectPath t.name .realMemory) = none
  | _ => True

instance (s : TaskSys) : (a : TaskEvent) → Decidable (s.Orderly a)
  | .step i _ => inferInstanceAs (Decidable (∀ t ∈ s.tasks[i]?, t.phase.begins = true →
      s.kernel.names (objectPath t.name .activeClaims) = none →
        s.kernel.names (objectPath t.name .realMemory) = none))
  | .create _ _ _ => inferInstanceAs (Decidable True)
  | .open _ _ => inferInstanceAs (Decidable True)
  | .regions _ _ => inferInstanceAs (Decidable True)

/-- Every handle's claim list has been set up and not taken down. -/
def ListsReady (s : TaskSys) : Prop :=
  ∀ t ∈ s.tasks, ∀ real claims, t.phase = .live real claims →
    (s.kernel.objs claims.obj).listSync = .ready

structure ListOk (s : TaskSys) : Prop extends PairedOk s where
  -- while a block is being created there is nothing to open ...
  unopened : ∀ t ∈ s.tasks, t.phase.Creating →
    s.kernel.names (objectPath t.name .realMemory) = none
  -- ... and its creator is the only one to refer to its claims object
  alone : ∀ t ∈ s.tasks, t.phase.Creating → s.holders t.name .activeClaims = 1
  prepared : ∀ t ∈ s.tasks, ∀ size access claims, t.phase = .createReal size access claims →
    (s.kernel.objs claims.obj).listSync = .ready
  ready : ∀ n obj, s.kernel.names (objectPath n .activeClaims) = some obj →
    (∀ t ∈ s.tasks, t.name = n → ¬ t.phase.Creating) → (s.kernel.objs obj).listSync = .ready

/-- A handle has real memory, so its block is not being created. -/
theorem ListOk.listsReady (h : ListOk s) : s.ListsReady := by
  intro t ht real claims hp
  have hl := h.linked t ht
  rw [hp] at hl
  refine h.ready t.name claims.obj (hl .activeClaims claims rfl).1 fun u hu hname hcr => ?_
  have hnone := h.unopened u hu hcr
  rw [hname, (hl .realMemory real rfl).1] at hnone
  cases hnone

/-- While one task creates a block, the others refer to nothing of it. -/
theorem ListOk.excludes {u : Task} {j : Nat} (h : ListOk s) (hget : s.tasks[i]? = some t)
    (hu : s.tasks[j]? = some u) (hj : j ≠ i) (hname : t.name = u.name)
    (hcr : u.phase.Creating) (kind : MemoryBlock) : t.phase.held kind = none := by
  have humem := List.mem_of_getElem? hu
  cases hheld : t.phase.held kind with
  | none => rfl
  | some block =>
    exfalso
    cases kind with
    | realMemory =>
      have hlinked := (h.linked t (List.mem_of_getElem? hget) _ _ hheld).1
      have hnone := h.unopened u humem hcr
      rw [← hname, hlinked] at hnone
      cases hnone
    | activeClaims =>
      have htwo := two_le_holders hget hu hj hname (by simp [hheld]) hcr.1
      have hone := h.alone u humem hcr
      rw [← hname] at hone
      omega

/-! ## A move -/

theorem not_creating_of_none {p : Phase} (h : p.held .activeClaims = none) : ¬ p.Creating := by
  rintro ⟨hsome, -⟩
  rw [h] at hsome
  cases hsome

/-- Another task that creates a block goes on creating it. -/
theorem ListOk.creating_other {u : Task} {j : Nat} (h : ListOk s) (hget : s.tasks[i]? = some t)
    (hu : s.tasks[j]? = some u) (hj : j ≠ i) (hcr : u.phase.Creating)
    (hmove : Move t.name t.phase s.kernel p' k') :
    k'.names (objectPath u.name .realMemory) = none ∧
      holders ⟨k', s.tasks.set i ⟨t.name, p'⟩⟩ u.name .activeClaims = 1 := by
  have humem := List.mem_of_getElem? hu
  have hnone := h.unopened u humem hcr
  have hone := h.alone u humem hcr
  by_cases hname : t.name = u.name
  · have hheld := h.excludes hget hu hj hname hcr
    obtain ⟨claims, hclaims⟩ := Option.isSome_iff_exists.mp hcr.1
    have hlinked := (h.linked u humem _ _ hclaims).1
    have hkeep : p'.held = t.phase.held → s.kernel.Calm k' →
        k'.names (objectPath u.name .realMemory) = none ∧
          holders ⟨k', s.tasks.set i ⟨t.name, p'⟩⟩ u.name .activeClaims = 1 := by
      intro hp hcalm
      rw [holders_keep k' hget hp, hcalm.names]
      exact ⟨hnone, hone⟩
    obtain ⟨n, p⟩ := t
    cases hmove with
    | createFailed hcalm => exact hkeep rfl hcalm
    | claimsCreated hc =>
      have hfree := hc.free
      rw [show n = u.name from hname] at hfree
      exact absurd (hlinked.symm.trans hfree) nofun
    | openFailed hcalm => exact hkeep rfl hcalm
    | realOpened ho =>
      have hopen := ho.linked
      rw [show n = u.name from hname] at hopen
      exact absurd (hopen.symm.trans hnone) nofun
    | idle hp hcalm =>
      rcases hp with rfl | rfl
      · exact hkeep rfl hcalm
      · exact hkeep rfl hcalm
    -- in every other phase the task refers to something of this block
    | listFailed _ | listReady | realFailed _ | realCreated _ | listGone | claimsDropped =>
      exact absurd (hheld .activeClaims) nofun
    | claimsNotOpened _ | claimsOpened _ | realDropped | released _ | claimsClosed | realClosed =>
      exact absurd (hheld .realMemory) nofun
  · rw [holders_other k' hget hname, hmove.names_other (Ne.symm hname)]
    exact ⟨hnone, hone⟩

/-- The task that moved, if it creates a block now. -/
theorem ListOk.creating_self (h : ListOk s) (hget : s.tasks[i]? = some t)
    (horder : ∀ size access, t.phase = .create size access →
      s.kernel.names (objectPath t.name .activeClaims) = none →
        s.kernel.names (objectPath t.name .realMemory) = none)
    (hmove : Move t.name t.phase s.kernel p' k') (hcr : p'.Creating) :
    k'.names (objectPath t.name .realMemory) = none ∧
      holders ⟨k', s.tasks.set i ⟨t.name, p'⟩⟩ t.name .activeClaims = 1 := by
  have hkeep : p'.held = t.phase.held → t.phase.Creating → k'.names = s.kernel.names →
      k'.names (objectPath t.name .realMemory) = none ∧
        holders ⟨k', s.tasks.set i ⟨t.name, p'⟩⟩ t.name .activeClaims = 1 := by
    intro hp hold hnames
    rw [holders_keep k' hget hp, hnames]
    exact ⟨h.unopened t (List.mem_of_getElem? hget) hold, h.alone t (List.mem_of_getElem? hget) hold⟩
  have hheld : ∀ q q' : Phase, q'.held .activeClaims = q.held .activeClaims →
      q'.held .realMemory = q.held .realMemory → q'.held = q.held := by
    intro q q' hc hr
    funext kind
    cases kind with
    | realMemory => exact hr
    | activeClaims => exact hc
  obtain ⟨n, p⟩ := t
  cases hmove with
  | claimsCreated hc =>
    have hfree : s.kernel.names (objectPath n .activeClaims) = none := hc.free
    have hzero : s.holders n .activeClaims = 0 := by
      by_contra hne
      have hsome := (h.counted.linked_iff n .activeClaims).mpr (Nat.pos_of_ne_zero hne)
      rw [hfree] at hsome
      cases hsome
    constructor
    · rw [hc.kernel, Kernel.names_build, if_neg]
      · exact horder _ _ rfl hfree
      · exact fun he => absurd (objectPath_injective (n := n) (m := n) (j := .activeClaims) he).2 nofun
    · refine (bumped_gain k' hget rfl (held_eq_update rfl fun j hj => ?_)).here.trans ?_
      · cases j with
        | realMemory => rfl
        | activeClaims => exact absurd rfl hj
      · rw [hzero]
  | listFailed hcalm => exact hkeep (hheld _ _ rfl rfl) ⟨rfl, rfl⟩ hcalm.names
  | listReady => exact hkeep (hheld _ _ rfl rfl) ⟨rfl, rfl⟩ rfl
  | realFailed hcalm => exact hkeep (hheld _ _ rfl rfl) ⟨rfl, rfl⟩ hcalm.names
  | listGone => exact hkeep (hheld _ _ rfl rfl) ⟨rfl, rfl⟩ rfl
  | idle hp hcalm =>
    rcases hp with rfl | rfl
    · exact hkeep rfl hcr hcalm.names
    · exact hkeep rfl hcr hcalm.names
  | createFailed _ | claimsDropped | openFailed _ | realDropped | realClosed =>
    exact absurd hcr (not_creating_of_none rfl)
  | realCreated _ | realOpened _ | claimsNotOpened _ | claimsOpened _ | released _ | claimsClosed =>
    exact absurd hcr.2 nofun

/-- A claims path that is linked after a move was linked before, or its block is being created. -/
theorem names_claims_of_move {n : BlockName} {p : Phase} {k : Kernel} {obj : Nat}
    (hmove : Move n p k p' k') (hl : k'.names (objectPath n .activeClaims) = some obj) :
    k.names (objectPath n .activeClaims) = some obj ∨ p'.Creating := by
  have hclosed : ∀ {j : MemoryBlock} {block : Nat} {cell : Cell → Cell},
      (k.closed (objectPath n j) block cell).names (objectPath n .activeClaims) = some obj →
        k.names (objectPath n .activeClaims) = some obj := by
    intro j block cell hc
    unfold Kernel.closed at hc
    split at hc
    · rw [Kernel.names_unlink] at hc
      split at hc
      · cases hc
      · exact hc
    · exact hc
  cases hmove with
  | claimsCreated _ => exact .inr ⟨rfl, rfl⟩
  | realCreated hc =>
    rw [hc.kernel, Kernel.names_build, if_neg] at hl
    · exact .inl hl
    · exact fun he => absurd (objectPath_injective (n := n) (m := n) (j := .realMemory) he).2 nofun
  | listReady => exact .inl hl
  | listGone => exact .inl hl
  | claimsDropped => exact .inl (hclosed hl)
  | realDropped => exact .inl (hclosed hl)
  | claimsClosed => exact .inl (hclosed hl)
  | realClosed => exact .inl (hclosed hl)
  | realOpened ho => exact .inl (by rw [ho.kernel] at hl; exact hl)
  | claimsOpened ho => exact .inl (by rw [ho.kernel] at hl; exact hl)
  | createFailed hcalm => exact .inl (by rw [hcalm.names] at hl; exact hl)
  | listFailed hcalm => exact .inl (by rw [hcalm.names] at hl; exact hl)
  | realFailed hcalm => exact .inl (by rw [hcalm.names] at hl; exact hl)
  | openFailed hcalm => exact .inl (by rw [hcalm.names] at hl; exact hl)
  | claimsNotOpened hcalm => exact .inl (by rw [hcalm.names] at hl; exact hl)
  | released hcalm => exact .inl (by rw [hcalm.names] at hl; exact hl)
  | idle _ hcalm => exact .inl (by rw [hcalm.names] at hl; exact hl)

/-- A create that is over: it succeeded with a list that was ready, or its claims object is gone. -/
theorem ListOk.ready_created {obj : Nat} (h : ListOk s) (hget : s.tasks[i]? = some t)
    (hold : t.phase.Creating) (hmove : Move t.name t.phase s.kernel p' k') (hcr : ¬ p'.Creating)
    (hl : k'.names (objectPath t.name .activeClaims) = some obj)
    (hl' : s.kernel.names (objectPath t.name .activeClaims) = some obj) :
    (k'.objs obj).listSync = .ready := by
  have hmem := List.mem_of_getElem? hget
  have hlinked := h.linked t hmem
  have hone := h.alone t hmem hold
  have hprep := h.prepared t hmem
  obtain ⟨n, p⟩ := t
  cases hmove with
  | @realCreated size access claims real _ _ hc =>
    obtain rfl : claims.obj = obj :=
      Option.some.inj ((hlinked .activeClaims claims rfl).1.symm.trans hl')
    have hlt := (h.counted.object n .activeClaims _ hl').1
    rw [hc.kernel, Kernel.objs_build_ne _ _ _ hlt.ne]
    exact hprep size access claims rfl
  | @claimsDropped claims res =>
    -- the only reference is dropped, so the object is not linked any more
    have hname := (hlinked .activeClaims claims rfl).1
    rw [Kernel.closed, if_pos ((h.counted.refcount_eq_one_iff hname).mpr hone),
      Kernel.names_unlink_self] at hl
    cases hl
  | listFailed _ | listReady | realFailed _ | listGone => exact absurd ⟨rfl, rfl⟩ hcr
  | idle hp _ =>
    rcases hp with rfl | rfl
    · exact absurd hold hcr
    · exact absurd hold hcr
  | createFailed _ | claimsCreated _ | openFailed _ | realOpened _ =>
    exact absurd hold (not_creating_of_none rfl)
  | claimsNotOpened _ | claimsOpened _ | realDropped | released _ | claimsClosed | realClosed =>
    exact absurd hold.2 nofun

/-- Only a successful `claim_list_init` lets a create go on to the real memory. -/
theorem ListOk.prepared_self {size : UInt64} {access : AccessMode} {claims : SharedMemoryBlock}
    (h : ListOk s) (hget : s.tasks[i]? = some t) (hmove : Move t.name t.phase s.kernel p' k')
    (hp : p' = .createReal size access claims) : (k'.objs claims.obj).listSync = .ready := by
  have hmem := List.mem_of_getElem? hget
  have hlinked := h.linked t hmem
  have hprep := h.prepared t hmem
  obtain ⟨n, p⟩ := t
  subst hp
  cases hmove with
  | listReady =>
    rw [Kernel.objs_modifyObj_self]
    rfl
  | idle hp hcalm =>
    rcases hp with rfl | hp
    · have hname := (hlinked .activeClaims claims rfl).1
      rw [hcalm.listSync _ (h.counted.object n .activeClaims _ hname).1]
      exact hprep size access claims rfl
    · cases hp

theorem ListOk.move (h : ListOk s) (hget : s.tasks[i]? = some t)
    (hroom : ∀ kind, t.phase.opens kind → s.holders t.name kind + 1 < 2 ^ 32)
    (horder : ∀ size access, t.phase = .create size access →
      s.kernel.names (objectPath t.name .activeClaims) = none →
        s.kernel.names (objectPath t.name .realMemory) = none)
    (hmove : Move t.name t.phase s.kernel p' k') :
    ListOk ⟨k', s.tasks.set i ⟨t.name, p'⟩⟩ := by
  have hpaired := h.toPairedOk.move hget hroom hmove
  have hlt := h.linked t (List.mem_of_getElem? hget)
  refine ⟨hpaired, ?_, ?_, ?_, ?_⟩
  · intro u hu hcr
    rcases mem_set_or hu with rfl | ⟨j, hj, hgetj⟩
    · exact (h.creating_self hget horder hmove hcr).1
    · exact (h.creating_other hget hgetj hj hcr hmove).1
  · intro u hu hcr
    rcases mem_set_or hu with rfl | ⟨j, hj, hgetj⟩
    · exact (h.creating_self hget horder hmove hcr).2
    · exact (h.creating_other hget hgetj hj hcr hmove).2
  · intro u hu size access claims hp
    rcases mem_set_or hu with rfl | ⟨j, hj, hgetj⟩
    · exact h.prepared_self hget hmove hp
    · have hcr : u.phase.Creating := by rw [hp]; exact ⟨rfl, rfl⟩
      have humem := List.mem_of_getElem? hgetj
      have hold := (h.linked u humem .activeClaims claims (by rw [hp]; rfl)).1
      have hnew := (hpaired.linked u hu .activeClaims claims (by rw [hp]; rfl)).1
      rw [hmove.listSync h.counted hlt hold hnew ?_]
      · exact h.prepared u humem size access claims hp
      · by_cases hname : t.name = u.name
        · exact .inr (not_creating_of_none (h.excludes hget hgetj hj hname hcr .activeClaims))
        · exact .inl (Ne.symm hname)
  · intro n obj hl hnone
    by_cases hn : n = t.name
    · subst hn
      have hself : ¬ p'.Creating := hnone _ (mem_set_self hget _) rfl
      have hold : s.kernel.names (objectPath t.name .activeClaims) = some obj :=
        (names_claims_of_move hmove hl).resolve_right hself
      by_cases hcr : t.phase.Creating
      · exact h.ready_created hget hcr hmove hself hl hold
      · rw [hmove.listSync h.counted hlt hold hl (.inr hcr)]
        refine h.ready t.name obj hold fun u hu hname => ?_
        obtain ⟨j, hgetj⟩ := List.mem_iff_getElem?.mp hu
        by_cases hj : j = i
        · subst hj
          rw [Option.some.inj (hgetj.symm.trans hget)]
          exact hcr
        · exact hnone u (mem_set_of_ne hgetj hj _) hname
    · have hold : s.kernel.names (objectPath n .activeClaims) = some obj := by
        rw [← hmove.names_other hn]; exact hl
      rw [hmove.listSync h.counted hlt hold hl (.inl hn)]
      refine h.ready n obj hold fun u hu hname => ?_
      obtain ⟨j, hgetj⟩ := List.mem_iff_getElem?.mp hu
      refine hnone u (mem_set_of_ne hgetj ?_ _) hname
      rintro rfl
      exact hn (hname.symm.trans (congrArg Task.name (Option.some.inj (hgetj.symm.trans hget))))

/-! ## Runs -/

theorem ListOk.spawn {n : BlockName} {p : Phase} (h : ListOk s) (hp : ∀ kind, p.held kind = none) :
    ListOk { s with tasks := s.tasks ++ [⟨n, p⟩] } := by
  have hpaired := h.toPairedOk.spawn (n := n) hp
  have hnew : ∀ u ∈ s.tasks ++ [⟨n, p⟩], u.phase.Creating → u ∈ s.tasks := by
    intro u hu hcr
    rcases List.mem_append.mp hu with hold | hnew
    · exact hold
    · rw [List.mem_singleton] at hnew
      subst hnew
      exact absurd hcr (not_creating_of_none (hp _))
  have hsame : holders { s with tasks := s.tasks ++ [⟨n, p⟩] } = s.holders := by
    funext m kind
    simp [holders, hp]
  refine ⟨hpaired, fun u hu hcr => h.unopened u (hnew u hu hcr) hcr, fun u hu hcr => ?_,
    fun u hu size access claims hphase => ?_, fun m obj hl hnone => ?_⟩
  · rw [hsame]
    exact h.alone u (hnew u hu hcr) hcr
  · exact h.prepared u (hnew u hu (by rw [hphase]; exact ⟨rfl, rfl⟩)) size access claims hphase
  · exact h.ready m obj hl fun u hu => hnone u (List.mem_append_left _ hu)

theorem ListOk.step {a : TaskEvent} (h : ListOk s) (ha : s.Allowed a) (ho : s.Orderly a)
    (hs : TaskSys.step b s a = some s') : ListOk s' := by
  rcases step_cases h.toPairedOk ha hs with ⟨n, p, hp, rfl⟩ |
    ⟨i, e, t, p', rfl, hget, hmove, htasks⟩ | ⟨hcalm, htasks⟩
  · exact h.spawn hp
  · obtain ⟨k', tasks'⟩ := s'
    cases htasks
    exact h.move hget (ha.2 t hget) (fun size access hp => ho t hget (by rw [hp]; rfl)) hmove
  · have hpaired := h.toPairedOk.step ha hs
    obtain ⟨k', tasks'⟩ := s'
    cases htasks
    have hsync : ∀ n obj, s.kernel.names (objectPath n .activeClaims) = some obj →
        (k'.objs obj).listSync = (s.kernel.objs obj).listSync := fun n obj hl =>
      hcalm.listSync obj (h.counted.object n .activeClaims obj hl).1
    refine ⟨hpaired, ?_, h.alone, ?_, ?_⟩
    · rw [hcalm.names]; exact h.unopened
    · intro t ht size access claims hp
      rw [hsync t.name _ (h.linked t ht .activeClaims claims (by rw [hp]; rfl)).1]
      exact h.prepared t ht size access claims hp
    · intro n obj hl hnone
      rw [hcalm.names] at hl
      rw [hsync n obj hl]
      exact h.ready n obj hl hnone

theorem listOk_init : ListOk init := ⟨pairedOk_init, nofun, nofun, nofun, nofun⟩

/-- **A successfully opened handle has a usable claim list** in every orderly run. -/
theorem listsReady_of_orderly
    (hr : Reach (TaskSys.step b) (fun s a => s.Allowed a ∧ s.Orderly a) init s) : s.ListsReady := by
  have hok : ListOk s := hr.invariant listOk_init fun _ _ _ h ha hs => h.step ha.1 ha.2 hs
  exact hok.listsReady

theorem listsReady_two_handles :
    ∃ s, Reach (TaskSys.step ⟨false⟩) (fun s a => s.Allowed a ∧ s.Orderly a) init s ∧
      s.bothLive = true ∧ s.ListsReady := by
  have htrace : ∃ s, Reach (TaskSys.step ⟨false⟩) (fun s a => s.Allowed a ∧ s.Orderly a) init s ∧
      s.bothLive = true :=
    exists_reach_of_trace (g := fun s a => decide (s.Allowed a ∧ s.Orderly a)) (t := bothLive)
      twoHandles (fun _ _ h => of_decide_eq_true h) (fun _ h => h) (by decide +kernel)
  obtain ⟨s, hr, hlive⟩ := htrace
  exact ⟨s, hr, hlive, listsReady_of_orderly hr⟩

/-! ## Where it goes wrong -/

/-- An open has the real memory; the creator's close drops the claims object and with it the list; a
second create makes a new claims object, which the open picks up before its list is set up. -/
def rawList : List TaskEvent :=
  [.create .a 1 .readWrite, .step 0 .willing, .step 0 .willing, .step 0 .willing,
   .open .a .readWrite, .step 1 .willing,
   .step 0 .willing, .step 0 .willing,
   .create .a 1 .readWrite, .step 2 .willing,
   .step 1 .willing]

/-- Some handle's list is not ready. -/
def listless (s : TaskSys) : Bool :=
  s.tasks.any fun t =>
    match t.phase with
    | .live _ claims => (s.kernel.objs claims.obj).listSync ≠ .ready
    | _ => false

theorem not_listsReady_of_listless (h : s.listless = true) : ¬ s.ListsReady := by
  intro hready
  obtain ⟨t, ht, hlist⟩ := List.any_eq_true.mp h
  split at hlist
  · rename_i real claims hp
    exact absurd (hready t ht real claims hp) (by simpa using hlist)
  · cases hlist

theorem rawList_not_listsReady :
    ∃ s, Reach (TaskSys.step ⟨false⟩) Allowed init s ∧ ¬ s.ListsReady :=
  exists_reach_of_trace (g := fun s a => decide (s.Allowed a)) (t := listless) rawList
    (fun _ _ h => of_decide_eq_true h) (fun _ h => not_listsReady_of_listless h) (by decide +kernel)

end TaskSys

end Ipm
