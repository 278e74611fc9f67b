import Ipm.Lib.Reach
import Ipm.Lib.Threads
import Ipm.Memory.Whole

/-!
# The lifetime of a block

Whole calls, one after another, by any number of processes over any names: creates, opens and closes,
forks, which copy a handle without counting it, and the cleaning of such copies. Between the calls
handles may use their claim lists as they like.

After every call the reference counts of both objects of a name are the number of handles that have
been created or opened and not closed, and both objects are linked while there is one.
-/

set_option autoImplicit false

namespace Ipm

open Lib

structure LifeSys where
  kernel : Kernel
  handles : List Memory
  -- copies of handles in forked processes
  copies : List Memory

/-- Who makes a call. -/
structure Caller where
  ctx : Context
  proc : Proc

inductive LifeEvent where
  | create (c : Caller) (os : CreateOs) (blockSize : UInt64) (n : BlockName) (access : AccessMode)
  | open (c : Caller) (os : OpenOs) (n : BlockName) (access : AccessMode)
  | close (c : Caller) (lock : IpmResult) (claims real : Os) (i : Nat)
  | fork (i : Nat)
  | clean (c : Caller) (claims real : Os) (j : Nat)
  /-- The region calls of handle `i` leave `list` behind. -/
  | regions (i : Nat) (list : ClaimList)

namespace LifeSys

def init : LifeSys := { kernel := .empty, handles := [], copies := [] }

/-- The state after a call that gives a handle when it succeeds. -/
def acquire (s : LifeSys) : Outcome World (Except IpmResult Memory) → LifeSys
  | .ret (.ok memory) w => { s with kernel := w.kernel, handles := s.handles ++ [memory] }
  | .ret (.error _) w => { s with kernel := w.kernel }
  | .stop _ w => { s with kernel := w.kernel }

def step (b : Build) (s : LifeSys) : LifeEvent → Option LifeSys
  | .create c os blockSize n access =>
    some (s.acquire (ipmMemoryCreate b c.ctx os blockSize n access ⟨s.kernel, c.proc⟩))
  | .open c os n access =>
    some (s.acquire (ipmMemoryOpen b c.ctx os n access ⟨s.kernel, c.proc⟩))
  | .close c lock claims real i =>
    (s.handles[i]?).map fun memory =>
      match ipmMemoryClose b c.ctx lock claims real memory ⟨s.kernel, c.proc⟩ with
      | .ret _ w => { s with kernel := w.kernel, handles := s.handles.eraseIdx i }
      | .stop _ w => { s with kernel := w.kernel }
  | .fork i => (s.handles[i]?).map fun memory => { s with copies := s.copies ++ [memory] }
  | .clean c claims real j =>
    (s.copies[j]?).map fun memory =>
      match ipmMemoryClean b claims real memory ⟨s.kernel, c.proc⟩ with
      | .ret _ w => { s with kernel := w.kernel, copies := s.copies.eraseIdx j }
      | .stop _ w => { s with kernel := w.kernel }
  | .regions i list =>
    (s.handles[i]?).map fun memory =>
      { s with kernel := s.kernel.modifyObj memory.activeClaims.obj fun o => { o with list := list } }

/-- The handles of `n` that have been created or opened and not closed. -/
def live (s : LifeSys) (n : BlockName) : Nat := s.handles.countP fun memory => memory.blockName = n

/-- The environment's side, and the callers': headers can be mapped, names can be removed, no name
gets `2 ^ 32` handles, and a handle holds no claims when it is closed. -/
def Permitted (s : LifeSys) : LifeEvent → Prop
  | .create _ os _ _ _ => os.Sound
  | .open _ os n _ => os.Sound ∧ s.live n + 1 < 2 ^ 32
  | .close _ _ claims real i => claims.Sound ∧ real.Sound ∧
      ∀ memory ∈ s.handles[i]?, memory.HoldsNone s.kernel
  | _ => True

instance (s : LifeSys) : (a : LifeEvent) → Decidable (s.Permitted a)
  | .create _ os _ _ _ => inferInstanceAs (Decidable os.Sound)
  | .open _ os n _ => inferInstanceAs (Decidable (os.Sound ∧ s.live n + 1 < 2 ^ 32))
  | .close _ _ claims real i => inferInstanceAs (Decidable (claims.Sound ∧ real.Sound ∧
      ∀ memory ∈ s.handles[i]?, memory.HoldsNone s.kernel))
  | .fork _ => inferInstanceAs (Decidable True)
  | .clean _ _ _ _ => inferInstanceAs (Decidable True)
  | .regions _ _ => inferInstanceAs (Decidable True)

/-- Every handle counts as one reference to each of its objects. -/
def counts (s : LifeSys) : RefCounts := fun n _ => s.live n

structure LifeOk (s : LifeSys) : Prop where
  counted : Counted s.kernel s.counts
  linked : ∀ memory ∈ s.handles, memory.LinkedAt memory.blockName s.kernel

variable {b : Build} {s s' : LifeSys} {n : BlockName} {memory : Memory} {i : Nat}

theorem counts_append (k : Kernel) (copies : List Memory) (memory : Memory) :
    counts ⟨k, s.handles ++ [memory], copies⟩ = s.counts.handle memory.blockName := by
  funext m kind
  by_cases hm : m = memory.blockName
  · simp [counts, live, RefCounts.handle, hm]
  · simp [counts, live, RefCounts.handle, hm, Ne.symm hm]

theorem counts_eraseIdx (k : Kernel) (copies : List Memory) (hget : s.handles[i]? = some memory) :
    (counts ⟨k, s.handles.eraseIdx i, copies⟩).handle memory.blockName = s.counts := by
  funext m kind
  have hcount := countP_eraseIdx_add (fun memory : Memory => decide (memory.blockName = m)) hget
  by_cases hm : m = memory.blockName
  · simpa [counts, live, RefCounts.handle, hm] using hcount
  · simpa [counts, live, RefCounts.handle, hm, Ne.symm hm] using hcount

theorem live_pos (hm : memory ∈ s.handles) : 0 < s.live memory.blockName :=
  List.countP_pos_iff.mpr ⟨memory, hm, decide_eq_true rfl⟩

/-! ## Each call keeps the counts -/

/-- A call that adds a handle or changes no count. -/
theorem LifeOk.acquire {o : Outcome World (Except IpmResult Memory)} (h : LifeOk s)
    (hok : ∀ memory w, o = .ret (.ok memory) w → Counted w.kernel (s.counts.handle n) ∧
      s.kernel.Keeps w.kernel ∧ memory.LinkedAt n w.kernel)
    (herr : ∀ e w, o = .ret (.error e) w → Counted w.kernel s.counts ∧ s.kernel.Keeps w.kernel)
    (hstop : ∀ why w, o = .stop why w → w.kernel = s.kernel) : LifeOk (s.acquire o) := by
  cases o with
  | ret r w =>
    cases r with
    | ok memory =>
      obtain ⟨hcount, hkeep, hl⟩ := hok memory w rfl
      constructor
      · rw [LifeSys.acquire, counts_append, hl.blockName]
        exact hcount
      · intro u hu
        rcases List.mem_append.mp hu with hold | hnew
        · exact (h.linked u hold).keep hkeep
        · obtain rfl : u = memory := List.mem_singleton.mp hnew
          rw [hl.blockName]
          exact hl
    | error e =>
      obtain ⟨hcount, hkeep⟩ := herr e w rfl
      exact ⟨hcount, fun u hu => (h.linked u hu).keep hkeep⟩
  | stop why w =>
    rw [LifeSys.acquire, hstop why w rfl]
    exact h

/-- A call that leaves the kernel's names and headers alone. -/
theorem LifeOk.steady {k' : Kernel} (h : LifeOk s) (copies : List Memory)
    (hs : s.kernel.Steady k') : LifeOk ⟨k', s.handles, copies⟩ :=
  ⟨h.counted.steady hs, fun u hu => (h.linked u hu).keep (.of_eq hs.names)⟩

theorem LifeOk.step {a : LifeEvent} (h : LifeOk s) (ha : s.Permitted a)
    (hs : LifeSys.step b s a = some s') : LifeOk s' := by
  cases a with
  | create c os blockSize n access =>
    cases hs
    have hpost := ipmMemoryCreate_post b c.ctx blockSize n access (w := ⟨s.kernel, c.proc⟩) h.counted ha
    refine h.acquire (n := n) (fun memory w ho => ?_) (fun e w ho => ?_) fun why w ho => ?_
    · exact (hpost.of_ret ho).2
    · exact ⟨(hpost.of_error ho).counted, (hpost.of_error ho).keeps⟩
    · exact (hpost.of_stop ho).2.1
  | «open» c os n access =>
    cases hs
    have hpost := ipmMemoryOpen_post b c.ctx access (w := ⟨s.kernel, c.proc⟩) (n := n)
      (S := fun _ _ => False) h.counted ha.1 fun _ => ha.2
    refine h.acquire (n := n) (fun memory w ho => ?_) (fun e w ho => ?_) fun why w ho => ?_
    · exact (hpost.of_ret ho).2
    · exact ⟨(hpost.of_error ho).1, (hpost.of_error ho).2.1⟩
    · exact (hpost.of_stop ho).elim
  | close c lock claims real i =>
    obtain ⟨memory, hget, rfl⟩ := Option.map_eq_some_iff.mp hs
    obtain ⟨hclaims, hreal, hnone⟩ := ha
    have hl := h.linked memory (List.mem_of_getElem? hget)
    -- the counts without this handle
    let H := counts ⟨s.kernel, s.handles.eraseIdx i, s.copies⟩
    have hC : Counted s.kernel (H.handle memory.blockName) := by
      rw [counts_eraseIdx s.kernel s.copies hget]
      exact h.counted
    have hpost := ipmMemoryClose_post b c.ctx lock (w := ⟨s.kernel, c.proc⟩) (E := fun _ _ => False)
      (S := fun _ _ => False) hC hl hclaims hreal (hnone memory hget)
    obtain ⟨u, w, hret, hcount, hnames⟩ := hpost.exists_ret (fun _ _ h => h) fun _ _ h => h
    rw [hret]
    refine ⟨hcount, fun other hother => ?_⟩
    have hlo := h.linked other (List.mem_of_mem_eraseIdx hother)
    refine ⟨rfl, fun kind => hnames _ _ _ (hlo.names kind) ?_, hlo.hasOwnership⟩
    exact live_pos (s := ⟨s.kernel, s.handles.eraseIdx i, s.copies⟩) hother
  | fork i =>
    obtain ⟨memory, -, rfl⟩ := Option.map_eq_some_iff.mp hs
    exact ⟨h.counted, h.linked⟩
  | clean c claims real j =>
    obtain ⟨memory, -, rfl⟩ := Option.map_eq_some_iff.mp hs
    have hpost := ipmMemoryClean_keeps b claims real memory ⟨s.kernel, c.proc⟩
    cases hout : ipmMemoryClean b claims real memory ⟨s.kernel, c.proc⟩ with
    | ret r w =>
      cases r with
      | ok u =>
        refine h.steady _ ?_
        rw [hpost.of_ret hout]
        exact .refl _
      | error e =>
        refine h.steady _ ?_
        rw [hpost.of_error hout]
        exact .refl _
    | stop why w =>
      refine h.steady _ ?_
      rw [hpost.of_stop hout]
      exact .refl _
  | regions i list =>
    obtain ⟨memory, -, rfl⟩ := Option.map_eq_some_iff.mp hs
    exact h.steady _ (Kernel.calm_relist _ _ list).toSteady

theorem lifeOk_init : LifeOk init := ⟨counted_empty, nofun⟩

/-! ## What the callers see -/

/-- `ipm_memory_ref_count` returns the number of live handles. -/
theorem LifeOk.refCount (h : LifeOk s) (hm : memory ∈ s.handles) (proc : Proc) :
    ∃ refs w, ipmMemoryRefCount memory ⟨s.kernel, proc⟩ = .ret (.ok refs) w ∧
      refs.toNat = s.live memory.blockName := by
  have hl := (h.linked memory hm).names .realMemory
  obtain ⟨-, hlen, -, -, hcount⟩ := h.counted.object _ _ _ hl
  have hpost : Prog.Post (ipmMemoryRefCount memory) ⟨s.kernel, proc⟩
      (fun refs _ => refs.toNat = s.live memory.blockName) (fun _ _ => False)
      (fun _ _ => False) := by
    refine (getHeader_post hlen).bind fun hd w1 h1 => Prog.Post.pure ?_
    rw [h1.2]
    exact hcount
  exact hpost.exists_ret (fun _ _ h => h) fun _ _ h => h

/-- Without a handle there is nothing to open, and a caller is told so whose callback lets it. -/
theorem LifeOk.open_gone (h : LifeOk s) (hnone : s.live n = 0) (b : Build) (c : Caller)
    {os : OpenOs} (access : AccessMode) (hos : os.Sound) (halloc : os.alloc = true)
    (hfd : ∃ fd, os.real.shmOpen = .ok fd) :
    (∃ w, ipmMemoryOpen b c.ctx os n access ⟨s.kernel, c.proc⟩ = .ret (.error .errDoesNotExist) w) ↔
      c.ctx.report .ENOENT = .ENOENT := by
  have hzero : ∀ kind, s.counts n kind = 0 := fun _ => hnone
  have hpost := ipmMemoryOpen_post b c.ctx access (w := ⟨s.kernel, c.proc⟩) (n := n)
    (S := fun _ _ => False) h.counted hos fun kind => by rw [hzero]; decide
  obtain ⟨e, w, hout, he⟩ := hpost.exists_error
    (fun _ _ hq => absurd (hzero .realMemory) hq.1.ne') fun _ _ hs => hs
  rw [hout, ← he.2.2 (hzero _) halloc hfd]
  constructor
  · rintro ⟨w', hsame⟩
    cases hsame
    rfl
  · rintro rfl
    exact ⟨w, rfl⟩

/-- Without a handle the name is free. -/
theorem LifeOk.create_gone (h : LifeOk s) (hnone : s.live n = 0) (b : Build) (c : Caller)
    {os : CreateOs} (size : UInt64) (access : AccessMode) (hos : os.Sound) (w : World) :
    ipmMemoryCreate b c.ctx os size n access ⟨s.kernel, c.proc⟩ ≠ .ret (.error .errExists) w := by
  intro hout
  have hpost := ipmMemoryCreate_post b c.ctx size n access (w := ⟨s.kernel, c.proc⟩) h.counted hos
  obtain ⟨kind, hpos⟩ := (hpost.of_error hout).taken rfl
  have hzero : s.counts n kind = 0 := hnone
  exact absurd hzero hpos.ne'

/-- With a handle the name is taken. -/
theorem LifeOk.create_taken (h : LifeOk s) (hpos : 0 < s.live n) {b : Build} (c : Caller)
    {os : CreateOs} {size : UInt64} (access : AccessMode) (hos : os.Sound)
    (halloc : os.alloc = true) (hfd : ∃ fd, os.claims.shmOpen = .ok fd) (hsize : RequestOk b size) :
    ∃ w, ipmMemoryCreate b c.ctx os size n access ⟨s.kernel, c.proc⟩ =
      .ret (.error .errExists) w := by
  have hpost := ipmMemoryCreate_post b c.ctx size n access (w := ⟨s.kernel, c.proc⟩) h.counted hos
  have hcount : 0 < s.counts n .activeClaims := hpos
  obtain ⟨e, w, hout, he⟩ := hpost.exists_error (fun _ _ hq => absurd hq.1 hcount.ne')
    fun _ _ hs => hs.2.2 hsize
  rw [he.exists_of_asked halloc hfd hcount] at hout
  exact ⟨w, hout⟩

/-- The lifetime of blocks, as the callers see it. -/
structure Lifetime (b : Build) (s : LifeSys) : Prop where
  linked_iff : ∀ n kind, (s.kernel.names (objectPath n kind)).isSome ↔ 0 < s.live n
  refcount : ∀ n kind obj, s.kernel.names (objectPath n kind) = some obj →
    (s.kernel.header obj).refcount.toNat = s.live n
  handles : ∀ memory ∈ s.handles, ∀ kind,
    s.kernel.names (objectPath memory.blockName kind) = some (memory.block kind).obj
  ref_count : ∀ memory ∈ s.handles, ∀ proc, ∃ refs w,
    ipmMemoryRefCount memory ⟨s.kernel, proc⟩ = .ret (.ok refs) w ∧
      refs.toNat = s.live memory.blockName
  open_gone : ∀ (c : Caller) (os : OpenOs) (n : BlockName) (access : AccessMode), s.live n = 0 →
    os.Sound → os.alloc = true → (∃ fd, os.real.shmOpen = .ok fd) →
      ((∃ w, ipmMemoryOpen b c.ctx os n access ⟨s.kernel, c.proc⟩ =
        .ret (.error .errDoesNotExist) w) ↔ c.ctx.report .ENOENT = .ENOENT)
  create_gone : ∀ (c : Caller) (os : CreateOs) (size : UInt64) (n : BlockName)
    (access : AccessMode) (w : World), s.live n = 0 → os.Sound →
      ipmMemoryCreate b c.ctx os size n access ⟨s.kernel, c.proc⟩ ≠ .ret (.error .errExists) w
  create_taken : ∀ (c : Caller) (os : CreateOs) (size : UInt64) (n : BlockName)
    (access : AccessMode), 0 < s.live n → os.Sound → os.alloc = true →
    (∃ fd, os.claims.shmOpen = .ok fd) → RequestOk b size →
      ∃ w, ipmMemoryCreate b c.ctx os size n access ⟨s.kernel, c.proc⟩ = .ret (.error .errExists) w

/-- **Reference counts are handle counts**, after every call of every run. -/
theorem lifetime_of_permitted (hr : Reach (LifeSys.step b) Permitted init s) : Lifetime b s := by
  have hok : LifeOk s := hr.invariant lifeOk_init fun _ _ _ h ha hs => h.step ha hs
  constructor
  · exact hok.counted.linked_iff
  · intro n kind obj hl
    exact (hok.counted.object n kind obj hl).2.refcount
  · intro memory hm kind
    exact (hok.linked memory hm).names kind
  · intro memory hm proc
    exact hok.refCount hm proc
  · intro c os n access hnone hos halloc hfd
    exact hok.open_gone hnone b c access hos halloc hfd
  · intro c os size n access w hnone hos
    exact hok.create_gone hnone b c size access hos w
  · intro c os size n access hpos hos halloc hfd hsize
    exact hok.create_taken hpos c access hos halloc hfd hsize

/-- A process in an environment in which every call succeeds. -/
def willing : Caller := ⟨⟨fun e => e⟩, .initial⟩

def createWilling : CreateOs :=
  { alloc := true, claims := .willing, listMutex := ⟨0, 0, 0, 0, 0⟩, listCondition := ⟨0, 0, 0⟩,
    real := .willing, rollback := .willing }

def openWilling : OpenOs :=
  { alloc := true, real := .willing, claims := .willing, rollback := .willing }

/-- A create, an open and a fork; then the copy is cleaned and the first handle closed. -/
def forked : List LifeEvent :=
  [.create willing createWilling 1 .a .readWrite, .open willing openWilling .a .readOnly,
   .fork 0, .clean willing .willing .willing 0, .close willing .success .willing .willing 0]

theorem lifetime_forked :
    ∃ s, Reach (LifeSys.step ⟨false⟩) Permitted init s ∧ s.live .a = 1 ∧ Lifetime ⟨false⟩ s := by
  have htrace : ∃ s, Reach (LifeSys.step ⟨false⟩) Permitted init s ∧ s.live .a = 1 :=
    exists_reach_of_trace (g := fun s a => decide (s.Permitted a))
      (t := fun s => decide (s.live .a = 1)) forked (fun _ _ h => of_decide_eq_true h)
      (fun _ h => of_decide_eq_true h) (by decide +kernel)
  obtain ⟨s, hr, hlive⟩ := htrace
  exact ⟨s, hr, hlive, lifetime_of_permitted hr⟩

/-- A process whose report callback writes to a log that it may not open. -/
def logging : Caller := ⟨⟨fun _ => .EACCES⟩, .initial⟩

/-- A create and a close. -/
def closed : List LifeEvent :=
  [.create willing createWilling 1 .a .readWrite, .close willing .success .willing .willing 0]

/-- After the last close, in an environment that grants everything, a process can be told that it lacks
permission. -/
theorem gone_misreported :
    ∃ s, Reach (LifeSys.step ⟨false⟩) Permitted init s ∧ s.live .a = 0 ∧ openWilling.Sound ∧
      openWilling.alloc = true ∧ (∃ fd, openWilling.real.shmOpen = .ok fd) ∧
      (ipmMemoryOpen ⟨false⟩ logging.ctx openWilling .a .readWrite ⟨s.kernel, logging.proc⟩).value? =
        some (.error .errAccess) := by
  have htrace : ∃ s, Reach (LifeSys.step ⟨false⟩) Permitted init s ∧ (s.live .a = 0 ∧
      (ipmMemoryOpen ⟨false⟩ logging.ctx openWilling .a .readWrite ⟨s.kernel, logging.proc⟩).value? =
        some (.error .errAccess)) :=
    exists_reach_of_trace (g := fun s a => decide (s.Permitted a)) (t := fun s => decide _) closed
      (fun _ _ h => of_decide_eq_true h) (fun _ h => of_decide_eq_true h) (by decide +kernel)
  obtain ⟨s, hr, hlive, hrun⟩ := htrace
  exact ⟨s, hr, hlive, ⟨by decide, by decide, by decide⟩, rfl, ⟨_, rfl⟩, hrun⟩

end LifeSys

end Ipm
