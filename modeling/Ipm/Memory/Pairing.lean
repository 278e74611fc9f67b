import Ipm.Lib.Threads
import Ipm.Memory.Tasks

/-!
# Handles of one name share both objects

In any interleaving of creates, opens and closes, an object is linked exactly while some task refers
to it, and its reference count is the number of tasks that do. So two handles of one name cannot
refer to different objects: both objects are still linked under the one path their name gives.

The invariant is `PairedOk`; a move of a task adds a reference, drops one, or leaves them all as they
are (`Effect`), and each of these keeps it.
-/

set_option autoImplicit false

namespace Ipm

open Lib

/-- What a move does to the references of its task. -/
inductive Effect (n : BlockName) (p : Phase) (k : Kernel) (p' : Phase) (k' : Kernel) : Prop
  | keep (hheld : p'.held = p.held) (hk : k.Steady k')
  | gain (kind : MemoryBlock) {block : SharedMemoryBlock} (hnone : p.held kind = none)
      (hheld : p'.held = Function.update p.held kind (some block))
      (hk : (∃ size access, Created k n kind.id size access block k') ∨
        p.opens kind ∧ ∃ access, Opened k n kind.id access block k')
  | lose (kind : MemoryBlock) {block : SharedMemoryBlock} {cell : Cell → Cell}
      (hsome : p.held kind = some block) (hheld : p'.held = Function.update p.held kind none)
      (hk : k' = k.closed (objectPath n kind) block.obj cell)

theorem held_eq_update {p p' : Phase} {kind : MemoryBlock} {v : Option SharedMemoryBlock}
    (hhere : p'.held kind = v) (helse : ∀ j ≠ kind, p'.held j = p.held j) :
    p'.held = Function.update p.held kind v := by
  funext j
  by_cases hj : j = kind
  · subst hj; simp [hhere]
  · rw [Function.update_of_ne hj, helse j hj]

theorem Move.effect {n : BlockName} {p p' : Phase} {k k' : Kernel} (h : Move n p k p' k') :
    Effect n p k p' k' := by
  have hkeep : ∀ {q q' : Phase}, (∀ kind, q'.held kind = q.held kind) → q'.held = q.held :=
    fun h => funext h
  cases h with
  | createFailed h => exact .keep rfl h.toSteady
  | claimsCreated h =>
    refine .gain .activeClaims rfl (held_eq_update rfl fun j hj => ?_) (.inl ⟨_, _, h⟩)
    cases j <;> first | rfl | exact absurd rfl hj
  | listFailed h => exact .keep (hkeep fun kind => by cases kind <;> rfl) h.toSteady
  | listReady =>
    exact .keep (hkeep fun kind => by cases kind <;> rfl)
      (Kernel.steady_modifyObj _ _ (fun _ => rfl) fun _ => rfl)
  | realFailed h => exact .keep (hkeep fun kind => by cases kind <;> rfl) h.toSteady
  | realCreated h =>
    refine .gain .realMemory rfl (held_eq_update rfl fun j hj => ?_) (.inl ⟨_, _, h⟩)
    cases j <;> first | rfl | exact absurd rfl hj
  | listGone =>
    exact .keep (hkeep fun kind => by cases kind <;> rfl)
      (Kernel.steady_modifyObj _ _ (fun _ => rfl) fun _ => rfl)
  | claimsDropped =>
    refine .lose .activeClaims rfl (held_eq_update rfl fun j hj => ?_) rfl
    cases j <;> first | rfl | exact absurd rfl hj
  | openFailed h => exact .keep rfl h.toSteady
  | realOpened h =>
    refine .gain .realMemory rfl (held_eq_update rfl fun j hj => ?_)
      (.inr ⟨rfl, _, h⟩)
    cases j <;> first | rfl | exact absurd rfl hj
  | claimsNotOpened h => exact .keep (hkeep fun kind => by cases kind <;> rfl) h.toSteady
  | claimsOpened h =>
    refine .gain .activeClaims rfl (held_eq_update rfl fun j hj => ?_)
      (.inr ⟨rfl, _, h⟩)
    cases j <;> first | rfl | exact absurd rfl hj
  | realDropped =>
    refine .lose .realMemory rfl (held_eq_update rfl fun j hj => ?_) rfl
    cases j <;> first | rfl | exact absurd rfl hj
  | released h => exact .keep (hkeep fun kind => by cases kind <;> rfl) h.toSteady
  | claimsClosed =>
    refine .lose .activeClaims rfl (held_eq_update rfl fun j hj => ?_) rfl
    cases j <;> first | rfl | exact absurd rfl hj
  | realClosed =>
    refine .lose .realMemory rfl (held_eq_update rfl fun j hj => ?_) rfl
    cases j <;> first | rfl | exact absurd rfl hj
  | idle hp h =>
    rcases hp with rfl | rfl
    · exact .keep rfl h.toSteady
    · exact .keep rfl h.toSteady

namespace TaskSys

variable {b : Build} {s s' : TaskSys} {i : Nat} {t : Task} {p' : Phase}

/-- The environment's side: headers can be mapped, names can be removed, and no object has `2 ^ 32`
references. -/
def Allowed (s : TaskSys) : TaskEvent → Prop
  | .step i e => e.os.Sound ∧ ∀ t ∈ s.tasks[i]?, ∀ kind, t.phase.opens kind →
      s.holders t.name kind + 1 < 2 ^ 32
  | _ => True

instance (s : TaskSys) : (a : TaskEvent) → Decidable (s.Allowed a)
  | .step i e => inferInstanceAs (Decidable (e.os.Sound ∧ ∀ t ∈ s.tasks[i]?, ∀ kind,
      t.phase.opens kind → s.holders t.name kind + 1 < 2 ^ 32))
  | .create _ _ _ => inferInstanceAs (Decidable True)
  | .open _ _ => inferInstanceAs (Decidable True)
  | .regions _ _ => inferInstanceAs (Decidable True)

/-- The objects and the tasks that refer to them agree. -/
structure PairedOk (s : TaskSys) : Prop where
  counted : Counted s.kernel s.holders
  linked : ∀ t ∈ s.tasks, t.phase.Linked s.kernel t.name

/-! ## The count after a move -/

theorem holders_set (k : Kernel) (p' : Phase) (hget : s.tasks[i]? = some t) (n : BlockName)
    (kind : MemoryBlock) :
    holders ⟨k, s.tasks.set i ⟨t.name, p'⟩⟩ n kind +
        (if t.name = n ∧ (t.phase.held kind).isSome then 1 else 0) =
      s.holders n kind + (if t.name = n ∧ (p'.held kind).isSome then 1 else 0) := by
  have h := countP_set_add
    (fun t : Task => decide (t.name = n ∧ (t.phase.held kind).isSome)) hget ⟨t.name, p'⟩
  simpa only [holders, decide_eq_true_eq] using h

theorem holders_keep (k : Kernel) (hget : s.tasks[i]? = some t) (hheld : p'.held = t.phase.held) :
    holders ⟨k, s.tasks.set i ⟨t.name, p'⟩⟩ = s.holders := by
  funext n kind
  have h := holders_set k p' hget n kind
  rw [hheld] at h
  omega

theorem bumped_gain (k : Kernel) {kind : MemoryBlock} {block : SharedMemoryBlock}
    (hget : s.tasks[i]? = some t) (hnone : t.phase.held kind = none)
    (hheld : p'.held = Function.update t.phase.held kind (some block)) :
    RefCounts.Bumped s.holders (holders ⟨k, s.tasks.set i ⟨t.name, p'⟩⟩) t.name kind := by
  constructor
  · have h := holders_set k p' hget t.name kind
    simpa [hnone, hheld] using h
  · intro m j hne
    have h := holders_set k p' hget m j
    by_cases hj : j = kind
    · have hm : t.name ≠ m := fun he => hne ⟨he.symm, hj⟩
      simpa [hm] using h
    · rw [hheld, Function.update_of_ne hj] at h
      omega

theorem bumped_lose (k : Kernel) {kind : MemoryBlock} {block : SharedMemoryBlock}
    (hget : s.tasks[i]? = some t) (hsome : t.phase.held kind = some block)
    (hheld : p'.held = Function.update t.phase.held kind none) :
    RefCounts.Bumped (holders ⟨k, s.tasks.set i ⟨t.name, p'⟩⟩) s.holders t.name kind := by
  constructor
  · have h := holders_set k p' hget t.name kind
    simpa [hsome, hheld] using h.symm
  · intro m j hne
    have h := holders_set k p' hget m j
    by_cases hj : j = kind
    · have hm : t.name ≠ m := fun he => hne ⟨he.symm, hj⟩
      simpa [hm] using h.symm
    · rw [hheld, Function.update_of_ne hj] at h
      omega

/-- Two tasks that refer to one object. -/
theorem two_le_holders {u : Task} {j : Nat} {kind : MemoryBlock} (hget : s.tasks[i]? = some t)
    (hu : s.tasks[j]? = some u) (hj : j ≠ i) (hname : t.name = u.name)
    (ht : (t.phase.held kind).isSome) (hheld : (u.phase.held kind).isSome) :
    2 ≤ s.holders t.name kind := by
  -- without the first one the second is still counted
  have hset := holders_set s.kernel .closed hget t.name kind
  have hrest : 0 < holders ⟨s.kernel, s.tasks.set i ⟨t.name, .closed⟩⟩ t.name kind := by
    exact List.countP_pos_iff.mpr ⟨u, mem_set_of_ne hu hj _, by simp [hname, hheld]⟩
  rw [if_pos ⟨rfl, ht⟩, if_neg (by simp [Phase.held])] at hset
  omega

/-- A move does not change who refers to the objects of another name. -/
theorem holders_other (k : Kernel) (hget : s.tasks[i]? = some t) {n : BlockName}
    (hne : t.name ≠ n) (kind : MemoryBlock) :
    holders ⟨k, s.tasks.set i ⟨t.name, p'⟩⟩ n kind = s.holders n kind := by
  have h := holders_set k p' hget n kind
  simpa [hne] using h

/-! ## The invariant -/

/-- A task that is still there keeps what it refers to, through the move of another. -/
theorem PairedOk.linked_other {k' : Kernel} {u : Task} {j : Nat} (h : PairedOk s)
    (hget : s.tasks[i]? = some t) (hu : s.tasks[j]? = some u) (hj : j ≠ i)
    (heff : Effect t.name t.phase s.kernel p' k') : u.phase.Linked k' u.name := by
  intro kind block hblock
  obtain ⟨hname, hown⟩ := h.linked u (List.mem_of_getElem? hu) kind block hblock
  refine ⟨?_, hown⟩
  cases heff with
  | keep _ hk => rw [hk.names]; exact hname
  | gain _ _ _ hk =>
    rcases hk with ⟨size, access, hc⟩ | ⟨-, access, ho⟩
    · exact Counted.names_created hc hname
    · rw [ho.kernel]; exact hname
  | @lose kind' block' _ hsome _ hk =>
    rw [hk]
    obtain ⟨hl, -⟩ := h.linked t (List.mem_of_getElem? hget) kind' block' hsome
    refine h.counted.names_closed hl hname ?_
    by_cases hsame : u.name = t.name ∧ kind = kind'
    · -- both refer to the object that loses a reference, so it has another one
      obtain ⟨hun, rfl⟩ := hsame
      exact .inr (two_le_holders hget hu hj hun.symm (by simp [hsome]) (by simp [hblock]))
    · exact .inl hsame

/-- A move keeps the objects and the tasks in agreement. -/
theorem PairedOk.move {k' : Kernel} (h : PairedOk s) (hget : s.tasks[i]? = some t)
    (hroom : ∀ kind, t.phase.opens kind → s.holders t.name kind + 1 < 2 ^ 32)
    (hmove : Move t.name t.phase s.kernel p' k') :
    PairedOk ⟨k', s.tasks.set i ⟨t.name, p'⟩⟩ := by
  have heff := hmove.effect
  have hmine := h.linked t (List.mem_of_getElem? hget)
  constructor
  · cases heff with
    | keep hheld hk =>
      rw [holders_keep k' hget hheld]
      exact h.counted.steady hk
    | gain _ hnone hheld hk =>
      have hbump := bumped_gain k' hget hnone hheld
      rcases hk with ⟨size, access, hc⟩ | ⟨hopens, access, ho⟩
      · exact h.counted.create hc hbump
      · exact h.counted.opened ho hbump (hroom _ hopens)
    | lose _ hsome hheld hk =>
      rw [hk]
      exact h.counted.closed (hmine _ _ hsome).1 (bumped_lose _ hget hsome hheld)
  · intro u hu
    rcases mem_set_or hu with rfl | ⟨j, hj, hgetj⟩
    · -- the task that moved
      intro kind block hblock
      cases heff with
      | keep hheld hk =>
        obtain ⟨hname, hown⟩ := hmine kind block (by rw [← hheld]; exact hblock)
        exact ⟨by rw [hk.names]; exact hname, hown⟩
      | @gain kind' block' _ hheld hk =>
        simp only [hheld] at hblock
        by_cases hkind : kind = kind'
        · subst hkind
          rw [Function.update_self, Option.some.injEq] at hblock
          subst hblock
          rcases hk with ⟨size, access, hc⟩ | ⟨-, access, ho⟩
          · exact ⟨Counted.names_created_self hc, hc.hasOwnership⟩
          · refine ⟨?_, ho.hasOwnership⟩
            rw [ho.kernel]; exact ho.linked
        · rw [Function.update_of_ne hkind] at hblock
          obtain ⟨hname, hown⟩ := hmine kind block hblock
          refine ⟨?_, hown⟩
          rcases hk with ⟨size, access, hc⟩ | ⟨-, access, ho⟩
          · exact Counted.names_created hc hname
          · rw [ho.kernel]; exact hname
      | @lose kind' block' _ hsome hheld hk =>
        simp only [hheld] at hblock
        by_cases hkind : kind = kind'
        · subst hkind
          rw [Function.update_self] at hblock
          cases hblock
        · rw [Function.update_of_ne hkind] at hblock
          obtain ⟨hname, hown⟩ := hmine kind block hblock
          refine ⟨?_, hown⟩
          rw [hk]
          exact h.counted.names_closed (hmine _ _ hsome).1 hname (.inl fun he => hkind he.2)
    · exact h.linked_other hget hgetj hj heff

/-! ## Runs -/

/-- A call that has only begun refers to nothing. -/
theorem PairedOk.spawn {n : BlockName} {p : Phase} (h : PairedOk s) (hp : ∀ kind, p.held kind = none) :
    PairedOk { s with tasks := s.tasks ++ [⟨n, p⟩] } := by
  constructor
  · have hsame : holders { s with tasks := s.tasks ++ [⟨n, p⟩] } = s.holders := by
      funext m kind
      simp [holders, hp]
    rw [hsame]
    exact h.counted
  · intro u hu
    rcases List.mem_append.mp hu with hold | hnew
    · exact h.linked u hold
    · rw [List.mem_singleton] at hnew
      subst hnew
      intro kind block hblock
      rw [hp kind] at hblock
      cases hblock

/-- What a step is: a call begins, a task moves, or a handle edits its claim list. -/
theorem step_cases {a : TaskEvent} (h : PairedOk s) (ha : s.Allowed a)
    (hs : TaskSys.step b s a = some s') :
    (∃ n p, (∀ kind, p.held kind = none) ∧ s' = { s with tasks := s.tasks ++ [⟨n, p⟩] }) ∨
    (∃ i e t p', a = .step i e ∧ s.tasks[i]? = some t ∧
      Move t.name t.phase s.kernel p' s'.kernel ∧ s'.tasks = s.tasks.set i ⟨t.name, p'⟩) ∨
    (s.kernel.Calm s'.kernel ∧ s'.tasks = s.tasks) := by
  cases a with
  | create n blockSize access => exact .inl ⟨n, .create blockSize access, fun _ => rfl, by cases hs; rfl⟩
  | «open» n access => exact .inl ⟨n, .openReal access, fun _ => rfl, by cases hs; rfl⟩
  | step i e =>
    obtain ⟨t, hget, hout⟩ := Option.bind_eq_some_iff.mp hs
    have hpost := Phase.advance_post (b := b) (w := ⟨s.kernel, e.proc⟩) h.counted
      (h.linked t (List.mem_of_getElem? hget)) ha.1
    refine .inr (.inl ⟨i, e, t, ?_⟩)
    cases hadv : t.phase.advance b e t.name ⟨s.kernel, e.proc⟩ with
    | ret r w =>
      cases r with
      | ok phase =>
        rw [hadv] at hout
        cases hout
        exact ⟨phase, rfl, hget, hpost.of_ret hadv, rfl⟩
      | error res => exact (hpost.of_error hadv).elim
    | stop why w =>
      rw [hadv] at hout
      cases why with
      | spin => cases hout
      | assertion =>
        cases hout
        exact ⟨.stopped t.phase, rfl, hget, .idle (.inr rfl) (hpost.of_stop hadv), rfl⟩
      | fault =>
        cases hout
        exact ⟨.stopped t.phase, rfl, hget, .idle (.inr rfl) (hpost.of_stop hadv), rfl⟩
  | regions i list =>
    refine .inr (.inr ?_)
    obtain ⟨t, -, hout⟩ := Option.bind_eq_some_iff.mp hs
    split at hout
    · cases hout
      exact ⟨Kernel.calm_relist _ _ _, rfl⟩
    · cases hout

theorem PairedOk.step {a : TaskEvent} (h : PairedOk s) (ha : s.Allowed a)
    (hs : TaskSys.step b s a = some s') : PairedOk s' := by
  rcases step_cases h ha hs with ⟨n, p, hp, rfl⟩ | ⟨i, e, t, p', rfl, hget, hmove, htasks⟩ |
    ⟨hcalm, htasks⟩
  · exact h.spawn hp
  · obtain ⟨k', tasks'⟩ := s'
    cases htasks
    exact h.move hget (ha.2 t hget) hmove
  · obtain ⟨k', tasks'⟩ := s'
    cases htasks
    refine ⟨h.counted.steady hcalm.toSteady, fun t ht kind block hblock => ?_⟩
    obtain ⟨hname, hown⟩ := h.linked t ht kind block hblock
    exact ⟨by rw [hcalm.names]; exact hname, hown⟩

theorem pairedOk_init : PairedOk init := ⟨counted_empty, nofun⟩

/-- The number of tasks that refer to an object. -/
def references (s : TaskSys) (obj : Nat) : Nat :=
  s.tasks.countP fun t =>
    (t.phase.held .realMemory).any (·.obj = obj) || (t.phase.held .activeClaims).any (·.obj = obj)

/-- Live handles of one name share both objects. -/
def Paired (s : TaskSys) : Prop :=
  ∀ t ∈ s.tasks, ∀ u ∈ s.tasks, t.name = u.name → ∀ real claims real' claims',
    t.phase = .live real claims → u.phase = .live real' claims' →
      real.obj = real'.obj ∧ claims.obj = claims'.obj

theorem PairedOk.paired (h : PairedOk s) : s.Paired := by
  intro t ht u hu hname real claims real' claims' hp hq
  have hlt := h.linked t ht
  have hlu := h.linked u hu
  rw [hp] at hlt
  rw [hq, ← hname] at hlu
  exact ⟨Option.some.inj ((hlt .realMemory real rfl).1.symm.trans (hlu .realMemory real' rfl).1),
    Option.some.inj ((hlt .activeClaims claims rfl).1.symm.trans (hlu .activeClaims claims' rfl).1)⟩

/-- A task refers to a linked object exactly as its path says. -/
theorem PairedOk.references_eq (h : PairedOk s) {n : BlockName} {kind : MemoryBlock} {obj : Nat}
    (hl : s.kernel.names (objectPath n kind) = some obj) :
    s.references obj = s.holders n kind := by
  have hiff : ∀ t ∈ s.tasks, ∀ j,
      (t.phase.held j).any (·.obj = obj) = true ↔
        j = kind ∧ t.name = n ∧ (t.phase.held j).isSome := by
    intro t ht j
    cases hheld : t.phase.held j with
    | none => simp
    | some block =>
      obtain ⟨hname, -⟩ := h.linked t ht j block hheld
      simp only [Option.any_some, decide_eq_true_eq, Option.isSome_some, and_true]
      constructor
      · rintro rfl
        exact (h.counted.unique hl hname).symm
      · rintro ⟨rfl, rfl⟩
        exact Option.some.inj (hname.symm.trans hl)
  refine List.countP_congr fun t ht => ?_
  rw [Bool.or_eq_true, hiff t ht, hiff t ht, decide_eq_true_eq]
  cases kind <;> simp

/-- **Handles of one name agree on what they share**, and a linked object is counted exactly. -/
theorem paired_and_counted (hr : Reach (TaskSys.step b) Allowed init s) :
    s.Paired ∧ ∀ path obj, s.kernel.names path = some obj →
      0 < (s.kernel.header obj).refcount.toNat ∧
        (s.kernel.header obj).refcount.toNat = s.references obj := by
  have hok : PairedOk s := hr.invariant pairedOk_init fun _ _ _ h ha hs => h.step ha hs
  refine ⟨hok.paired, fun path obj hl => ?_⟩
  obtain ⟨n, kind, rfl⟩ := hok.counted.known path obj hl
  have hcount : (s.kernel.header obj).refcount.toNat = s.holders n kind :=
    (hok.counted.object n kind obj hl).2.refcount
  rw [hcount]
  exact ⟨hok.counted.pos hl, (hok.references_eq hl).symm⟩

/-- A block is created by one process and opened by another. -/
def twoHandles : List TaskEvent :=
  [.create .a 1 .readWrite, .step 0 .willing, .step 0 .willing, .step 0 .willing,
   .open .a .readOnly, .step 1 .willing, .step 1 .willing]

/-- Both handles are live at the end of it. -/
def bothLive (s : TaskSys) : Bool :=
  s.tasks.all fun t => match t.phase with | .live _ _ => true | _ => false

theorem paired_two_handles :
    ∃ s, Reach (TaskSys.step ⟨false⟩) Allowed init s ∧ s.bothLive = true ∧ s.Paired ∧
      ∀ path obj, s.kernel.names path = some obj →
        0 < (s.kernel.header obj).refcount.toNat ∧
          (s.kernel.header obj).refcount.toNat = s.references obj := by
  have htrace : ∃ s, Reach (TaskSys.step ⟨false⟩) Allowed init s ∧ s.bothLive = true :=
    exists_reach_of_trace (g := fun s a => decide (s.Allowed a)) (t := bothLive) twoHandles
      (fun _ _ h => of_decide_eq_true h) (fun _ h => h) (by decide +kernel)
  obtain ⟨s, hr, hlive⟩ := htrace
  exact ⟨s, hr, hlive, paired_and_counted hr⟩

end TaskSys

end Ipm
