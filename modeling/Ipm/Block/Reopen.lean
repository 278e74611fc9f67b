import Ipm.Block.Steps

/-!
# Opening a block while others close it

One finished block, and any number of threads that open and close it, access by access. An opener
looks at the reference count and increments it in two steps, and a closer decrements it and takes
the block down in others. So a closer that sees the last reference can pass between the two steps of
an opener, which then returns a handle to a block that is being destroyed.

`Settled` is the condition that no closer does. Under it every handle refers to an object that is
linked and whose segment mutex is there.
-/

set_option autoImplicit false

namespace Ipm

open Lib

namespace Point

/-- A thread inside `shared_memory_block_create`. -/
def creates : Point → Bool
  | create _ _ => true
  | truncate _ => true
  | mapBody _ => true
  | mapHeader _ => true
  | writeId _ => true
  | writeSize _ => true
  | writeCounter _ => true
  | initMutex _ => true
  | writeName _ => true
  | takeFirstId _ => true
  | publish _ _ => true
  | stopped before => before.creates
  | _ => false

/-- The object a thread works on, once it has looked it up. -/
def object : Point → Option Nat
  | openHeader l => some l.file.obj
  | readSize l => some l.file.obj
  | openBody l => some l.file.obj
  | await l => some l.file.obj
  | checkId l => some l.file.obj
  | checkName l => some l.file.obj
  | retain l => some l.file.obj
  | takeId l => some l.file.obj
  | held block => some block.obj
  | destroy block => some block.obj
  | unlink block => some block.obj
  | unmap block => some block.obj
  | stopped before => before.object
  | _ => none

/-- An opener that has seen a positive `refcount` and not incremented it yet. -/
def observes : Point → Bool
  | checkId _ => true
  | checkName _ => true
  | retain _ => true
  | _ => false

/-- The object whose count the next step of a thread decrements. -/
def drops : Point → Option Nat
  | held block => some block.obj
  | _ => none

/-- The object whose count the next step of a thread increments. -/
def adds : Point → Option Nat
  | retain l => some l.file.obj
  | _ => none

/-- A closer that has seen the last reference. -/
def retires : Point → Bool
  | destroy _ => true
  | unlink _ => true
  | stopped before => before.retires
  | _ => false

end Point

/-! ## What a step of an opener or a closer can do -/

/-- The steps of openers and closers: the point and the kernel before, and after. -/
inductive Turn (path : CString) : Point → Kernel → Point → Kernel → Prop
  | found {access : AccessMode} {l : Locals} {k : Kernel} (h : k.names path = some l.file.obj) :
      Turn path (.lookup access) k (.openHeader l) k
  | observed {l : Locals} {k : Kernel} (h : (k.header l.file.obj).refcount ≠ 0) :
      Turn path (.await l) k (.checkId l) k
  | retained {l : Locals} {k : Kernel} :
      Turn path (.retain l) k (.takeId l) (k.modifyObj l.file.obj fun o =>
        { o with header := { o.header with refcount := o.header.refcount + 1 } })
  | opened {l : Locals} {accessId : UInt64} {k : Kernel} :
      Turn path (.takeId l) k (.held (l.block accessId)) (k.modifyObj l.file.obj fun o =>
        { o with header := { o.header with idCounter := o.header.idCounter + 1 } })
  | released {block : SharedMemoryBlock} {k : Kernel} (h : (k.header block.obj).refcount ≠ 1) :
      Turn path (.held block) k (.unmap block) (k.modifyObj block.obj ShmObject.dropped)
  | lastReleased {block : SharedMemoryBlock} {k : Kernel} (h : (k.header block.obj).refcount = 1) :
      Turn path (.held block) k (.destroy block) (k.modifyObj block.obj ShmObject.dropped)
  | destroyed {block : SharedMemoryBlock} {k : Kernel} :
      Turn path (.destroy block) k (.unlink block) (k.modifyObj block.obj fun o =>
        { o with header := { o.header with segmentMutex := .destroyed } })
  | unlinked {block : SharedMemoryBlock} {res : Except IpmResult Unit} {k k' : Kernel}
      (hobjs : k'.objs = k.objs) (hnames : ∀ p o, k'.names p = some o → k.names p = some o) :
      Turn path (.unlink block) k (.closed res) k'
  /-- A step that leaves shared state alone. -/
  | quiet {p p' : Point} {k : Kernel} (hcreates : p'.creates = false)
      (hobject : ∀ o, p'.object = some o → p.object = some o) (hcounted : p'.counted = p.counted)
      (hobserves : p'.observes = true → p.observes = true)
      (hretires : p'.retires = true → p.retires = true) : Turn path p k p' k

namespace Point

variable {b : Build} {ctx : Context} {os : Os} {n : BlockName} {id : UInt64} {w : World}

theorem shmUnlink_any_post {path : CString} {E : IpmResult → World → Prop}
    {S : Stop → World → Prop} :
    Prog.Post (shmUnlink os path) w
      (fun _ w' => w'.kernel.objs = w.kernel.objs ∧
        ∀ p o, w'.kernel.names p = some o → w.kernel.names p = some o) E S := by
  rw [Prog.post_iff, shmUnlink]
  cases os.unlink with
  | some e => exact ⟨rfl, fun _ _ h => h⟩
  | none =>
    cases w.kernel.names path with
    | none => exact ⟨rfl, fun _ _ h => h⟩
    | some obj =>
      refine ⟨rfl, fun p o h => ?_⟩
      simp only [Kernel.names_unlink] at h
      split at h
      · cases h
      · exact h

/-- The end of a last close takes names away, and nothing else. -/
theorem unlinkBlock_drops_post {block : SharedMemoryBlock} :
    Prog.Post (unlinkBlock ctx os block) w
      (fun _ w' => w'.kernel.objs = w.kernel.objs ∧
        ∀ p o, w'.kernel.names p = some o → w.kernel.names p = some o)
      (fun _ w' => w'.kernel.objs = w.kernel.objs ∧
        ∀ p o, w'.kernel.names p = some o → w.kernel.names p = some o)
      (fun _ w' => w'.kernel = w.kernel) := by
  refine (getHeader_any_post.mapStop fun _ _ h => h ▸ rfl).bind fun hd w1 h1 => ?_
  obtain ⟨rfl, -⟩ := h1
  refine munmap_post.bind fun _ w2 h2 => munmap_post.bind fun _ w3 h3 => ?_
  refine shmUnlink_any_post.bind fun done w4 h4 => ?_
  rw [h3.trans h2] at h4
  cases done with
  | true => exact Prog.Post.pure h4
  | false =>
    refine ipmError_post.bind fun _ w5 h5 => errno_post.bind fun _ w6 h6 => ?_
    rw [← h6.trans h5] at h4
    exact Prog.Post.fail h4

/-- A step whose piece leaves the kernel alone. -/
theorem quiet_post {α : Type} {path : CString} {p : Point} {q : Call α} {ok : α → Point}
    {err : IpmResult → Point} (hq : Prog.Keeps World.kernel q)
    (hok : ∀ a k, Turn path p k (ok a) k) (herr : ∀ e k, Turn path p k (err e) k) :
    Prog.Post (q.settle ok err) w (fun p' w' => Turn path p w.kernel p' w'.kernel)
      (fun _ _ => False) (fun _ w' => w'.kernel = w.kernel) := by
  refine (hq w).settle ok err (fun a t h => ?_) fun e t h => ?_
  · rw [h]
    exact hok a _
  · rw [h]
    exact herr e _

/-- Openers and closers take only these steps, and are stopped only where they have done nothing. -/
theorem turn_post {p : Point} (hp : p.creates = false) :
    Prog.Post (p.advance b ctx os n id) w
      (fun p' w' => Turn (makeBlockNameBasedOnId n.chars id) p w.kernel p' w'.kernel)
      (fun _ _ => False) (fun _ w' => w'.kernel = w.kernel) := by
  cases p with
  | lookup access =>
    refine (openLookup_post _).settle _ _ (fun file w' h => ?_) fun e w' h => ?_
    · rw [h.2]
      exact .found h.1
    · rw [h.1]
      exact .quiet rfl nofun rfl nofun nofun
  | openHeader l =>
    exact quiet_post mapHeader_keeps (fun _ _ => .quiet rfl (fun _ h => h) rfl nofun nofun)
      fun _ _ => .quiet rfl nofun rfl nofun nofun
  | readSize l =>
    exact quiet_post readSize_keeps (fun _ _ => .quiet rfl (fun _ h => h) rfl nofun nofun)
      fun _ _ => .quiet rfl nofun rfl nofun nofun
  | openBody l =>
    exact quiet_post openMapBody_keeps (fun _ _ => .quiet rfl (fun _ h => h) rfl nofun nofun)
      fun _ _ => .quiet rfl nofun rfl nofun nofun
  | await l =>
    refine (awaitRefcount_any_post.mapStop fun _ _ h => h ▸ rfl).settle _ _
      (fun _ w' h => ?_) fun _ _ h => h
    rw [h.1]
    exact .observed h.2.2
  | checkId l =>
    exact quiet_post checkBlockId_keeps
      (fun _ _ => .quiet rfl (fun _ h => h) rfl (fun _ => rfl) nofun)
      fun _ _ => .quiet rfl nofun rfl nofun nofun
  | checkName l =>
    exact quiet_post checkBlockName_keeps
      (fun _ _ => .quiet rfl (fun _ h => h) rfl (fun _ => rfl) nofun)
      fun _ _ => .quiet rfl nofun rfl nofun nofun
  | retain l =>
    refine (setHeader_any_post.mapStop fun _ _ h => h ▸ rfl).settle _ _
      (fun _ w' h => ?_) fun _ _ h => h
    rw [h]
    exact .retained
  | takeId l =>
    refine (fetch_any_post.mapStop fun _ _ h => h ▸ rfl).settle _ _
      (fun _ w' h => ?_) fun _ _ h => h
    rw [h.2]
    exact .opened
  | held block =>
    have hpost : Prog.Post (do
        Prog.assert b (!block.hasOwnership)
        closeFd os block.memFd
        releaseRef block.obj) w
        (fun refs w' => refs = (w.kernel.header block.obj).refcount ∧
          w'.kernel = w.kernel.modifyObj block.obj ShmObject.dropped) (fun _ _ => False)
        (fun _ w' => w'.kernel = w.kernel) := by
      refine (Prog.Post.assert (Q := fun _ w' => w' = w) (fun _ => rfl) fun _ _ => rfl).bind ?_
      intro _ w1 h1
      subst w1
      refine closeFd_post.bind fun _ w1 h1 => ?_
      refine fetch_any_post.mono (fun _ _ h => ?_) (fun _ _ h => h) fun _ _ h => h ▸ h1
      rw [← h1]
      exact h
    refine hpost.settle _ _ (fun refs w' h => ?_) fun _ _ h => h.elim
    rw [h.2]
    split
    · exact .lastReleased (h.1 ▸ ‹_›)
    · exact .released (h.1 ▸ ‹_›)
  | destroy block =>
    refine (setHeader_any_post.mapStop fun _ _ h => h ▸ rfl).settle _ _
      (fun _ w' h => ?_) fun _ _ h => h
    rw [h]
    exact .destroyed
  | unlink block =>
    refine unlinkBlock_drops_post.settle _ _ (fun _ w' h => ?_) fun _ w' h => ?_
    · exact .unlinked h.1 h.2
    · exact .unlinked h.1 h.2
  | unmap block =>
    exact quiet_post unmapBlock_keeps (fun _ _ => .quiet rfl nofun rfl nofun nofun)
      fun _ _ => .quiet rfl nofun rfl nofun nofun
  | missed res => exact Prog.Post.pure (.quiet rfl nofun rfl nofun nofun)
  | failed res => exact Prog.Post.pure (.quiet rfl nofun rfl nofun nofun)
  | closed res => exact Prog.Post.pure (.quiet rfl nofun rfl nofun nofun)
  | stopped before =>
    exact Prog.Post.pure (.quiet hp (fun _ h => h) rfl (fun h => h) fun h => h)
  | _ => cases hp

end Point

/-! ## The invariant -/

namespace BlockSys

/-- `refcount` of the block. -/
def refs (s : BlockSys) (obj : Nat) : UInt32 := (s.kernel.header obj).refcount

/-- Whether a thread may take its next step: the last reference is dropped only while no opener
stands between its look at the count and its increment, and no increment wraps. -/
def SettledAt (s : BlockSys) (p : Point) : Prop :=
  (∀ obj ∈ p.drops, s.refs obj = 1 → ∀ q ∈ s.threads, q.observes = false) ∧
    ∀ obj ∈ p.adds, (s.refs obj).toNat + 1 < 2 ^ 32

instance (s : BlockSys) (p : Point) : Decidable (s.SettledAt p) :=
  inferInstanceAs (Decidable (_ ∧ _))

def Settled (s : BlockSys) : BlockEvent → Prop
  | .step i _ => ∀ p ∈ s.threads[i]?, s.SettledAt p
  | .open _ => True

instance (s : BlockSys) : (a : BlockEvent) → Decidable (s.Settled a)
  | .step i _ => inferInstanceAs (Decidable (∀ p ∈ s.threads[i]?, s.SettledAt p))
  | .open _ => inferInstanceAs (Decidable True)

/-- Threads open and close `obj`, which is what `path` leads to, if anything. While it has references
it is linked and whole, and while it has none nobody counts on it. -/
structure ReopenOk (path : CString) (obj : Nat) (s : BlockSys) : Prop where
  openers : ∀ p ∈ s.threads, p.creates = false
  object : ∀ p ∈ s.threads, ∀ o, p.object = some o → o = obj
  linked : ∀ o, s.kernel.names path = some o → o = obj
  count : (s.refs obj).toNat = s.threads.countP Point.counted
  alive : s.refs obj ≠ 0 → s.kernel.names path = some obj ∧
    (s.kernel.header obj).segmentMutex = .ready ∧ ∀ p ∈ s.threads, p.retires = false
  observed : s.refs obj = 0 → ∀ p ∈ s.threads, p.observes = false

variable {b : Build} {n : BlockName} {id : UInt64} {path : CString} {obj i : Nat}
variable {s s' : BlockSys} {p p' : Point} {k' : Kernel}

/-- The invariant after a step of one thread, by what it did to the count. -/
theorem ReopenOk.set (h : ReopenOk path obj s) (hcreates : p'.creates = false)
    (hobject : ∀ o, p'.object = some o → o = obj)
    (hlinked : ∀ o, k'.names path = some o → o = obj)
    (hcount : (k'.header obj).refcount.toNat = (s.threads.set i p').countP Point.counted)
    (halive : (k'.header obj).refcount ≠ 0 → s.refs obj ≠ 0 ∧ k'.names path = some obj ∧
      (k'.header obj).segmentMutex = .ready ∧ p'.retires = false)
    (hobserved : (k'.header obj).refcount = 0 →
      p'.observes = false ∧ ∀ q ∈ s.threads, q.observes = false) :
    ReopenOk path obj ⟨k', s.threads.set i p'⟩ where
  openers := forall_mem_set h.openers (fun _ _ hq => hq) hcreates
  object := forall_mem_set h.object (fun _ _ hq => hq) hobject
  linked := hlinked
  count := hcount
  alive := by
    intro hne
    obtain ⟨hold, hname, hmutex, hretires⟩ := halive hne
    exact ⟨hname, hmutex, forall_mem_set (h.alive hold).2.2 (fun _ _ hq => hq) hretires⟩
  observed := by
    intro hzero
    obtain ⟨hnew, hothers⟩ := hobserved hzero
    exact forall_mem_set hothers (fun _ _ hq => hq) hnew

/-- A step that changes neither the count nor who is counted. -/
theorem ReopenOk.set_same (h : ReopenOk path obj s) (hget : s.threads[i]? = some p)
    (hcreates : p'.creates = false) (hobject : ∀ o, p'.object = some o → o = obj)
    (hnames : k'.names = s.kernel.names)
    (hrefs : (k'.header obj).refcount = s.refs obj)
    (hmutex : (k'.header obj).segmentMutex = (s.kernel.header obj).segmentMutex)
    (hcounted : p'.counted = p.counted) (hobserves : p'.observes = true → s.refs obj ≠ 0)
    (hretires : p'.retires = true → p.retires = true) :
    ReopenOk path obj ⟨k', s.threads.set i p'⟩ := by
  refine h.set hcreates hobject ?_ ?_ (fun hne => ?_) fun hzero => ?_
  · rw [hnames]
    exact h.linked
  · have hset := countP_set_add Point.counted hget p'
    rw [hcounted] at hset
    rw [hrefs, h.count]
    omega
  · rw [hrefs] at hne
    obtain ⟨hname, hready, hothers⟩ := h.alive hne
    refine ⟨hne, by rw [hnames]; exact hname, by rw [hmutex]; exact hready, ?_⟩
    rw [Bool.eq_false_iff]
    intro hret
    exact absurd (hretires hret) (by simp [hothers p (List.mem_of_getElem? hget)])
  · rw [hrefs] at hzero
    refine ⟨?_, h.observed hzero⟩
    rw [Bool.eq_false_iff]
    exact fun hobs => hobserves hobs hzero

/-- A closer that has seen the last reference works on a block without references. -/
theorem ReopenOk.refs_eq_zero (h : ReopenOk path obj s) (hget : s.threads[i]? = some p)
    (hretires : p.retires = true) : s.refs obj = 0 := by
  by_contra hne
  exact absurd hretires (by simp [(h.alive hne).2.2 p (List.mem_of_getElem? hget)])

/-- A step of a closer that has seen the last reference. -/
theorem ReopenOk.set_retired (h : ReopenOk path obj s) (hget : s.threads[i]? = some p)
    (hretires : p.retires = true) (hcreates : p'.creates = false)
    (hobject : ∀ o, p'.object = some o → o = obj) (hcounted : p'.counted = p.counted)
    (hobserves : p'.observes = false)
    (hlinked : ∀ o, k'.names path = some o → s.kernel.names path = some o)
    (hrefs : (k'.header obj).refcount = s.refs obj) :
    ReopenOk path obj ⟨k', s.threads.set i p'⟩ := by
  have hzero := h.refs_eq_zero hget hretires
  refine h.set hcreates hobject (fun o ho => h.linked o (hlinked o ho)) ?_ (fun hne => ?_)
    fun _ => ⟨hobserves, h.observed hzero⟩
  · have hset := countP_set_add Point.counted hget p'
    rw [hcounted] at hset
    rw [hrefs, h.count]
    omega
  · rw [hrefs, hzero] at hne
    exact absurd rfl hne

/-- A reference less: the count was positive and is one less, and so is the number of those counted. -/
theorem ReopenOk.dropped {block : SharedMemoryBlock} (h : ReopenOk path block.obj s)
    (hget : s.threads[i]? = some (.held block)) (p' : Point) (hp' : p'.counted = false) :
    s.refs block.obj ≠ 0 ∧
      ((s.kernel.modifyObj block.obj ShmObject.dropped).header block.obj).refcount.toNat =
        (s.threads.set i p').countP Point.counted ∧
      ((s.kernel.modifyObj block.obj ShmObject.dropped).header block.obj).refcount.toNat + 1 =
        (s.refs block.obj).toNat := by
  have hset := countP_set_add Point.counted hget p'
  simp only [Point.counted, hp', Bool.false_eq_true, if_false, if_true, Nat.add_zero] at hset
  have hle : (1 : UInt32) ≤ s.refs block.obj := by
    rw [UInt32.le_iff_toNat_le, h.count, ← hset]
    exact Nat.le_add_left _ _
  have hrefs : ((s.kernel.modifyObj block.obj ShmObject.dropped).header block.obj).refcount.toNat =
      (s.refs block.obj).toNat - 1 := by
    rw [Kernel.header, Kernel.objs_modifyObj_self]
    change (s.refs block.obj - 1).toNat = _
    rw [UInt32.toNat_sub_of_le _ _ hle]
    rfl
  rw [hrefs, h.count]
  refine ⟨?_, by omega, by omega⟩
  rintro hzero
  rw [hzero] at hle
  exact absurd hle (by decide)

/-- Every step of an opener or a closer keeps the invariant. -/
theorem ReopenOk.turn (h : ReopenOk path obj s) (hget : s.threads[i]? = some p)
    (hsettled : s.SettledAt p) (hturn : Turn path p s.kernel p' k') :
    ReopenOk path obj ⟨k', s.threads.set i p'⟩ := by
  have hmem := List.mem_of_getElem? hget
  have hobj := h.object p hmem
  cases hturn with
  | found hl =>
    refine h.set_same hget rfl ?_ rfl rfl rfl rfl (fun h => by cases h) fun h => by cases h
    rintro o ⟨rfl⟩
    exact h.linked _ hl
  | observed hne =>
    have ho := hobj _ rfl
    refine h.set_same hget rfl (fun o ho' => hobj o ho') rfl rfl rfl rfl (fun _ => ?_) fun h => by cases h
    rw [← ho]
    exact hne
  | @retained l _ =>
    obtain rfl : l.file.obj = obj := hobj _ rfl
    -- an opener that has looked at the count finds it positive
    have hne : s.refs l.file.obj ≠ 0 := fun hzero =>
      absurd (h.observed hzero _ hmem) (by simp [Point.observes])
    obtain ⟨hname, hready, -⟩ := h.alive hne
    have hrefs : ((s.kernel.modifyObj l.file.obj fun o =>
        { o with header := { o.header with refcount := o.header.refcount + 1 } }).header
          l.file.obj).refcount.toNat = (s.refs l.file.obj).toNat + 1 := by
      rw [Kernel.header, Kernel.objs_modifyObj_self]
      change (s.refs l.file.obj + 1).toNat = _
      rw [UInt32.toNat_add]
      exact Nat.mod_eq_of_lt (hsettled.2 _ rfl)
    refine h.set rfl (fun o ho => hobj o ho) h.linked ?_ (fun _ => ⟨hne, hname, ?_, rfl⟩)
      fun hzero => ?_
    · have hset := countP_set_add Point.counted hget (.takeId l)
      rw [hrefs, h.count]
      simp only [Point.counted, Bool.false_eq_true, if_false, if_true] at hset
      omega
    · rw [Kernel.header, Kernel.objs_modifyObj_self]
      exact hready
    · rw [hzero] at hrefs
      cases hrefs
  | @opened l accessId _ =>
    obtain rfl : l.file.obj = obj := hobj _ rfl
    refine h.set_same hget rfl (fun o ho => hobj o ho) rfl ?_ ?_ rfl (fun h => by cases h)
      fun h => by cases h
    · rw [Kernel.header, Kernel.objs_modifyObj_self]
      rfl
    · rw [Kernel.header, Kernel.objs_modifyObj_self]
      rfl
  | @released block _ hne =>
    obtain rfl : block.obj = obj := hobj _ rfl
    obtain ⟨hne₀, hset, hrefs⟩ := h.dropped hget (.unmap block) rfl
    obtain ⟨hname, hready, -⟩ := h.alive hne₀
    refine h.set rfl (fun o ho => hobj o ho) h.linked hset (fun _ => ⟨hne₀, hname, ?_, rfl⟩)
      fun hzero => ?_
    · rw [Kernel.header, Kernel.objs_modifyObj_self]
      exact hready
    · rw [hzero] at hrefs
      refine absurd ?_ hne
      rw [← UInt32.toNat_inj]
      exact hrefs.symm
  | @lastReleased block _ hone =>
    obtain rfl : block.obj = obj := hobj _ rfl
    obtain ⟨hne₀, hset, hrefs⟩ := h.dropped hget (.destroy block) rfl
    refine h.set rfl (fun o ho => hobj o ho) h.linked hset (fun hne => ?_) fun _ => ?_
    · refine absurd ?_ hne
      rw [← UInt32.toNat_inj]
      have hone' : (s.refs block.obj).toNat = 1 := by rw [refs, hone]; rfl
      exact Nat.succ.inj (hrefs.trans hone')
    · exact ⟨rfl, hsettled.1 _ rfl hone⟩
  | @destroyed block _ =>
    obtain rfl : block.obj = obj := hobj _ rfl
    refine h.set_retired hget rfl rfl (fun o ho => hobj o ho) rfl rfl (fun _ ho => ho) ?_
    rw [Kernel.header, Kernel.objs_modifyObj_self]
    rfl
  | unlinked hobjs hnames =>
    refine h.set_retired hget rfl rfl (fun _ h => by cases h) rfl rfl (fun o ho => hnames _ o ho) ?_
    rw [refs, Kernel.header, hobjs]
    rfl
  | quiet hcreates hobject hcounted hobserves hretires =>
    refine h.set_same hget hcreates (fun o ho => hobj o (hobject o ho)) rfl rfl rfl hcounted
      (fun hobs hzero => ?_) hretires
    exact absurd (hobserves hobs) (by simp [h.observed hzero p hmem])

theorem ReopenOk.open (h : ReopenOk path obj s) (access : AccessMode) :
    ReopenOk path obj { s with threads := s.threads ++ [.lookup access] } := by
  have hall : ∀ {P : Point → Prop}, (∀ q ∈ s.threads, P q) → P (.lookup access) →
      ∀ q ∈ s.threads ++ [.lookup access], P q := by
    intro P hold hnew q hq
    rcases List.mem_append.mp hq with hq | hq
    · exact hold q hq
    · rw [List.mem_singleton.mp hq]
      exact hnew
  refine ⟨hall h.openers rfl, hall h.object nofun, h.linked, ?_, fun hne => ?_, fun hzero => ?_⟩
  · rw [List.countP_append]
    exact h.count
  · exact ⟨(h.alive hne).1, (h.alive hne).2.1, hall (h.alive hne).2.2 rfl⟩
  · exact hall (h.observed hzero) rfl

theorem ReopenOk.step {a : BlockEvent} (h : ReopenOk (makeBlockNameBasedOnId n.chars id) obj s)
    (ha : s.Settled a) (hs : BlockSys.step b n id s a = some s') :
    ReopenOk (makeBlockNameBasedOnId n.chars id) obj s' := by
  cases a with
  | «open» access =>
    cases hs
    exact h.open access
  | step i e =>
    obtain ⟨p, hget, hout⟩ := step_thread hs
    have hp := h.openers p (List.mem_of_getElem? hget)
    have hpost : Prog.Post (p.advance b e.ctx e.os n id) ⟨s.kernel, e.proc⟩ _ _ _ :=
      Point.turn_post hp
    rcases hout with ⟨p', w, hadv, rfl⟩ | ⟨why, w, hadv, rfl⟩
    · exact h.turn hget (ha p hget) (hpost.of_ret hadv)
    · rw [show w.kernel = s.kernel from hpost.of_stop hadv]
      exact h.turn hget (ha p hget) (.quiet hp (fun _ ho => ho) rfl nofun fun hr => hr)

/-! ## Runs -/

/-- Every handle refers to an object that is linked under the block's name and whose segment mutex
has not been destroyed. -/
def HandlesAlive (path : CString) (s : BlockSys) : Prop :=
  ∀ block, .held block ∈ s.threads → s.kernel.names path = some block.obj ∧
    (s.kernel.header block.obj).segmentMutex = .ready

theorem ReopenOk.handlesAlive (h : ReopenOk path obj s) : HandlesAlive path s := by
  intro block hblock
  obtain rfl : block.obj = obj := h.object _ hblock _ rfl
  have hne : s.refs block.obj ≠ 0 := by
    intro hzero
    have hcount := h.count
    rw [hzero] at hcount
    have hnone := List.countP_eq_zero.mp hcount.symm _ hblock
    exact hnone rfl
  exact ⟨(h.alive hne).1, (h.alive hne).2.1⟩

section Runs

variable {size : UInt64} {access : AccessMode} {block : SharedMemoryBlock} {k k₀ : Kernel}

theorem reopenOk_created (hc : Created k₀ n id size access block k) :
    ReopenOk (makeBlockNameBasedOnId n.chars id) block.obj ⟨k, [.held block]⟩ := by
  have hname : k.names (makeBlockNameBasedOnId n.chars id) = some block.obj := by
    rw [hc.kernel, hc.obj]
    exact Kernel.names_build_self _ _ _
  have hheader : k.header block.obj = (createdObject n id size).header := by
    rw [hc.kernel, hc.obj, Kernel.header, Kernel.objs_build_fresh]
  have hone : ∀ {P : Point → Prop}, P (.held block) → ∀ q ∈ [Point.held block], P q := by
    intro P hP q hq
    rw [List.mem_singleton.mp hq]
    exact hP
  refine ⟨hone rfl, hone ?_, fun o ho => ?_, ?_, fun _ => ⟨hname, ?_, hone rfl⟩, fun _ => hone rfl⟩
  · rintro o ⟨rfl⟩
    rfl
  · exact (Option.some.inj (hname.symm.trans ho)).symm
  · rw [refs, hheader]
    rfl
  · rw [hheader]
    rfl

/-- **Opening never resurrects a destroyed block** in settled runs. -/
theorem handlesAlive_of_settled (hc : Created k₀ n id size access block k)
    (hr : Reach (BlockSys.step b n id) Settled ⟨k, [.held block]⟩ s) :
    HandlesAlive (makeBlockNameBasedOnId n.chars id) s := by
  have hok : ReopenOk (makeBlockNameBasedOnId n.chars id) block.obj s :=
    hr.invariant (reopenOk_created hc) fun _ _ _ h ha hs => h.step ha hs
  exact hok.handlesAlive

end Runs

/-! ## Where it goes wrong -/

/-- The creator's handle of the block `("a", 1)`. -/
def firstBlock : SharedMemoryBlock :=
  { accessId := 1, size := 4096, header := 0x8000, memory := 0x10000, hasOwnership := false,
    accessMode := .readWrite, memFd := ⟨3, 0⟩ }

/-- The block `("a", 1)`, just created. -/
def first : BlockSys :=
  { kernel := Kernel.empty.build (makeBlockNameBasedOnId BlockName.a.chars 1)
      (createdObject .a 1 4096)
    threads := [.held firstBlock] }

theorem created_first : Created .empty .a 1 4096 .readWrite firstBlock first.kernel :=
  ⟨rfl, rfl, rfl, rfl, rfl, rfl, by decide, by decide, rfl⟩

/-- The block is opened, and then the first handle is closed. -/
def openThenClose : List BlockEvent := .open .readOnly :: (steps 1 9 ++ steps 0 2)

/-- An opener has seen the count; the closer drops the last reference; the opener returns its handle;
the closer destroys the mutex. -/
def closeInBetween : List BlockEvent :=
  .open .readWrite :: (steps 1 5 ++ steps 0 1 ++ steps 1 4 ++ steps 0 1)

/-- Thread `i` has a handle whose object passes the test `f`. -/
def holdsAt (s : BlockSys) (i : Nat) (f : SharedMemoryBlock → Bool) : Bool :=
  match s.threads[i]? with
  | some (.held block) => f block
  | _ => false

theorem holdsAt_held {f : SharedMemoryBlock → Bool} (h : s.holdsAt i f = true) :
    ∃ block, .held block ∈ s.threads ∧ f block = true := by
  unfold holdsAt at h
  split at h
  · exact ⟨_, List.mem_of_getElem? ‹_›, h⟩
  · cases h

theorem handlesAlive_opened_then_closed :
    Created .empty .a 1 4096 .readWrite firstBlock first.kernel ∧
    ∃ s, Reach (BlockSys.step ⟨false⟩ .a 1) Settled first s ∧
      s.holdsAt 1 (fun _ => true) = true ∧
      HandlesAlive (makeBlockNameBasedOnId BlockName.a.chars 1) s := by
  have htrace : ∃ s, Reach (BlockSys.step ⟨false⟩ .a 1) Settled first s ∧
      s.holdsAt 1 (fun _ => true) = true :=
    exists_reach_of_trace (g := fun s a => decide (s.Settled a))
      (t := fun s => s.holdsAt 1 fun _ => true) openThenClose
      (fun _ _ h => of_decide_eq_true h) (fun _ h => h) (by decide +kernel)
  obtain ⟨s, hr, hheld⟩ := htrace
  exact ⟨created_first, s, hr, hheld, handlesAlive_of_settled created_first hr⟩

theorem closeInBetween_not_handlesAlive :
    Created .empty .a 1 4096 .readWrite firstBlock first.kernel ∧
    ∃ s, Reach (BlockSys.step ⟨false⟩ .a 1) (fun _ _ => True) first s ∧
      ¬ HandlesAlive (makeBlockNameBasedOnId BlockName.a.chars 1) s := by
  refine ⟨created_first, exists_reach_of_trace (g := fun _ _ => true)
    (t := fun s => s.holdsAt 1 fun block =>
      decide ((s.kernel.header block.obj).segmentMutex = .destroyed))
    closeInBetween (fun _ _ _ => trivial) (fun s h halive => ?_) (by decide +kernel)⟩
  obtain ⟨block, hheld, hgone⟩ := holdsAt_held h
  rw [decide_eq_true_eq, (halive block hheld).2] at hgone
  cases hgone

end BlockSys

end Ipm
