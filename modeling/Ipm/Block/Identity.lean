import Ipm.Block.Handshake
import Ipm.Block.Naming
import Ipm.Block.Reopen
import Ipm.Lib.Tickets

/-!
# Access ids

A handle gets its `access_id` from `id_counter`, by one `atomic_fetch_add`. The counter itself is set
by a plain write of the creator, and openers run beside it: an increment before that write would be
lost, and its number given out twice. What rules it out is the wait for `refcount`, which the creator
writes last.

The runs are those of one creation and any number of openings, access by access, with any answers of
the environment: the creation may fail half way, its name may stay behind, openers may find nothing or
wait for ever. Nothing is closed.
-/

set_option autoImplicit false

namespace Ipm

open Lib

namespace Point

/-- The id of the handle a thread has. -/
def handleId : Point → Option UInt64
  | held block => some block.accessId
  | _ => none

/-- An opener that has got through its wait. -/
def past (p : Point) : Bool := p.observes || p.counted

end Point

variable {b : Build} {ctx : Context} {os : Os} {n : BlockName} {id : UInt64} {w : World}
variable {path : CString} {obj : Nat}

/-! ## Where handles come from -/

/-- What a step of an opener does to the counters: nothing, or it takes the next id of its block. -/
inductive Handed : Point → Kernel → Point → Kernel → Prop
  | none {p p' : Point} {k k' : Kernel} (hid : p'.handleId = none)
      (hcounter : ∀ o, (k'.header o).idCounter = (k.header o).idCounter) : Handed p k p' k'
  | taken {l : Locals} {k : Kernel} :
      Handed (.takeId l) k (.held (l.block (k.header l.file.obj).idCounter))
        (k.modifyObj l.file.obj fun o =>
          { o with header := { o.header with idCounter := o.header.idCounter + 1 } })

namespace Point

/-- A step whose piece leaves the kernel alone. -/
theorem handed_of_keeps {α : Type} {p : Point} {q : Call α} {ok : α → Point}
    {err : IpmResult → Point} (hq : Prog.Keeps World.kernel q) (hok : ∀ a, (ok a).handleId = none)
    (herr : ∀ e, (err e).handleId = none) :
    Prog.Post (q.settle ok err) w (fun p' w' => Handed p w.kernel p' w'.kernel) (fun _ _ => False)
      (fun _ _ => True) := by
  refine ((hq w).mapStop fun _ _ _ => trivial).settle _ _
    (fun a w' h => ?_) fun e w' h => ?_
  · rw [h]
    exact .none (hok a) fun _ => rfl
  · rw [h]
    exact .none (herr e) fun _ => rfl

/-- Openers get their ids in one step from the counter, and nowhere else. -/
theorem handed_post {p : Point} (hcreates : p.creates = false) (hretires : p.retires = false)
    (hdrops : p.drops = none) :
    Prog.Post (p.advance b ctx os n id) w (fun p' w' => Handed p w.kernel p' w'.kernel)
      (fun _ _ => False) (fun _ _ => True) := by
  cases p with
  | lookup access =>
    refine (openLookup_post fun _ _ => True).settle _ _ (fun file w' h => ?_) fun e w' h => ?_
    · exact .none rfl fun _ => by rw [h.2]
    · exact .none rfl fun _ => by rw [h.1]
  | openHeader l => exact handed_of_keeps mapHeader_keeps (fun _ => rfl) fun _ => rfl
  | readSize l => exact handed_of_keeps readSize_keeps (fun _ => rfl) fun _ => rfl
  | openBody l => exact handed_of_keeps openMapBody_keeps (fun _ => rfl) fun _ => rfl
  | await l =>
    refine (awaitRefcount_any_post.mapStop fun _ _ _ => trivial).settle _ _
      (fun _ w' h => ?_) fun _ _ h => h
    exact .none rfl fun _ => by rw [h.1]
  | checkId l => exact handed_of_keeps checkBlockId_keeps (fun _ => rfl) fun _ => rfl
  | checkName l => exact handed_of_keeps checkBlockName_keeps (fun _ => rfl) fun _ => rfl
  | retain l =>
    refine (setHeader_any_post.mapStop fun _ _ _ => trivial).settle _ _
      (fun _ w' h => ?_) fun _ _ h => h
    refine .none rfl fun o => ?_
    rw [h]
    by_cases ho : o = l.file.obj
    · rw [ho, Kernel.header, Kernel.objs_modifyObj_self]
      rfl
    · rw [Kernel.header, Kernel.objs_modifyObj_ne _ _ ho]
      rfl
  | takeId l =>
    refine (fetch_any_post.mapStop fun _ _ _ => trivial).settle _ _
      (fun _ w' h => ?_) fun _ _ h => h
    rw [h.1, h.2]
    exact .taken
  | held block => cases hdrops
  | destroy block => cases hretires
  | unlink block => cases hretires
  | unmap block => exact handed_of_keeps unmapBlock_keeps (fun _ => rfl) fun _ => rfl
  | missed res => exact Prog.Post.pure (.none rfl fun _ => rfl)
  | failed res => exact Prog.Post.pure (.none rfl fun _ => rfl)
  | closed res => exact Prog.Post.pure (.none rfl fun _ => rfl)
  | stopped before => exact Prog.Post.pure (.none rfl fun _ => rfl)
  | _ => cases hcreates

end Point

/-! ## The creator -/

/-- The object of a creation that has not written the count: the only one under its name. -/
structure Draft (path : CString) (obj : Nat) (k : Kernel) : Prop where
  unborn : (k.header obj).refcount = 0
  named : ∀ o, k.names path = some o → o = obj

theorem draftSafe (path : CString) (obj : Nat) : DraftSafe path obj (Draft path obj) := by
  constructor
  · intro k f h hf
    refine ⟨?_, h.named⟩
    rw [Kernel.header, Kernel.objs_modifyObj_self]
    exact hf _ h.unborn
  · intro k h
    refine ⟨h.unborn, fun o ho => ?_⟩
    rw [Kernel.names_unlink] at ho
    split at ho
    · cases ho
    · exact h.named o ho

/-- What a creator has made of the counter. -/
def Point.Counts (k : Kernel) : Point → Prop
  | initMutex l => (k.header l.file.obj).idCounter = 1
  | writeName l => (k.header l.file.obj).idCounter = 1
  | takeFirstId l => (k.header l.file.obj).idCounter = 1
  | publish l accessId => accessId = 1 ∧ (k.header l.file.obj).idCounter = 1 + 1
  | _ => True

/-- How a step of a creator that has its object can end. -/
inductive Made (path : CString) (obj : Nat) (k : Kernel) : Point → Kernel → Prop
  | goes {c : Point} {l : Locals} {k' : Kernel} (hl : c.building = some l) (hobj : l.file.obj = obj)
      (hcounts : c.Counts k') (hk : Draft path obj k') : Made path obj k c k'
  | fails {res : IpmResult} {k' : Kernel} (hk : Draft path obj k') : Made path obj k (.failed res) k'
  | publishes {l : Locals} (hobj : l.file.obj = obj) (hcounter : (k.header obj).idCounter = 1 + 1) :
      Made path obj k (.held (l.block 1)) (k.modifyObj obj fun o =>
        { o with header := { o.header with refcount := 1 } })

theorem header_modifyObj_self (k : Kernel) (obj : Nat) (f : Header → Header) :
    (k.modifyObj obj fun o => { o with header := f o.header }).header obj = f (k.header obj) := by
  rw [Kernel.header, Kernel.objs_modifyObj_self]
  rfl

/-- Initialising the mutex does not touch the counter. -/
theorem createMutex_counter_post {file : File} {size : UInt64} {header memory : Nat} :
    Prog.Post (createMutex ctx os path file size header memory) w
      (fun _ w' => (w'.kernel.header file.obj).idCounter = (w.kernel.header file.obj).idCounter)
      (fun _ _ => True) (fun _ _ => True) := by
  refine errno_post.bind fun e w1 h1 => ?_
  dsimp only
  split
  · refine closeFd_post.bind fun _ w2 _ => ipmError_post.bind fun _ w3 _ => ?_
    refine munmap_post.bind fun _ w4 _ => munmap_post.bind fun _ w5 _ => ?_
    exact Point.shmUnlink_any_post.bind fun _ _ _ => Prog.Post.fail trivial
  · refine setHeader_any_post.mono (fun _ w' h => ?_) (fun _ _ h => h) fun _ _ _ => trivial
    rw [h, Kernel.header, Kernel.objs_modifyObj_self, h1]
    rfl

/-- A write of the creator to the header. -/
theorem write_made {c' : Point} {l : Locals} {f : Header → Header} (hobj : l.file.obj = obj)
    (hk : Draft path obj w.kernel) (hf : ∀ h, (f h).refcount = h.refcount)
    (hl : c'.building = some l)
    (hcounts : ∀ k, (k.header l.file.obj) = f (w.kernel.header l.file.obj) → c'.Counts k) :
    Prog.Post ((setHeader l.file.obj f).settle (fun _ => c') .failed) w
      (fun c' w' => Made path obj w.kernel c' w'.kernel) (fun _ _ => False)
      (fun _ w' => Draft path obj w'.kernel) := by
  subst hobj
  have hpost := (setHeader_draft (draftSafe path l.file.obj) hf w hk).and
    (setHeader_any_post (E := fun _ _ => True))
  refine (hpost.mapStop fun _ _ h => h.1).settle _ _
    (fun _ w' h => ?_) fun _ w' h => ?_
  · refine .goes hl rfl (hcounts _ ?_) h.1
    rw [h.2, header_modifyObj_self]
  · exact .fails h.1

/-- **What one step of the creator does**, whatever the environment answers. -/
theorem made_post {c : Point} {l : Locals} (hl : c.building = some l) (hobj : l.file.obj = obj)
    (hcounts : c.Counts w.kernel)
    (hk : Draft (makeBlockNameBasedOnId n.chars id) obj w.kernel) :
    Prog.Post (c.advance b ctx os n id) w
      (fun c' w' => Made (makeBlockNameBasedOnId n.chars id) obj w.kernel c' w'.kernel)
      (fun _ _ => False) (fun _ w' => Draft (makeBlockNameBasedOnId n.chars id) obj w'.kernel) := by
  subst hobj
  have hI := draftSafe (makeBlockNameBasedOnId n.chars id) l.file.obj
  cases c with
  | truncate l =>
    obtain rfl := Option.some.inj hl
    rw [Point.advance]
    exact (createTruncate_draft hI w hk).settle _ _ (fun _ _ h => .goes rfl rfl trivial h)
      fun _ _ h => .fails h
  | mapBody l =>
    obtain rfl := Option.some.inj hl
    rw [Point.advance]
    exact (createMapBody_draft hI w hk).settle _ _ (fun _ _ h => .goes rfl rfl trivial h)
      fun _ _ h => .fails h
  | mapHeader l =>
    obtain rfl := Option.some.inj hl
    rw [Point.advance]
    exact (draft_of_keeps mapHeader_keeps w hk).settle _ _ (fun _ _ h => .goes rfl rfl trivial h)
      fun _ _ h => .fails h
  | writeId l =>
    obtain rfl := Option.some.inj hl
    rw [Point.advance]
    exact write_made rfl hk (fun _ => rfl) rfl fun _ _ => trivial
  | writeSize l =>
    obtain rfl := Option.some.inj hl
    rw [Point.advance]
    exact write_made rfl hk (fun _ => rfl) rfl fun _ _ => trivial
  | writeCounter l =>
    obtain rfl := Option.some.inj hl
    rw [Point.advance]
    refine write_made rfl hk (fun _ => rfl) rfl fun k h => ?_
    rw [Point.Counts, h]
  | initMutex l =>
    obtain rfl := Option.some.inj hl
    rw [Point.advance]
    refine (((createMutex_draft hI w hk).and createMutex_counter_post).mono (fun _ _ h => h)
      (fun _ _ h => h.1) fun _ _ h => h.1).settle _ _ (fun _ w' h => ?_) fun _ _ h => .fails h
    refine .goes rfl rfl ?_ h.1
    rw [Point.Counts, h.2]
    exact hcounts
  | writeName l =>
    obtain rfl := Option.some.inj hl
    rw [Point.advance]
    refine write_made rfl hk (fun _ => rfl) rfl fun k h => ?_
    rw [Point.Counts, h]
    exact hcounts
  | takeFirstId l =>
    obtain rfl := Option.some.inj hl
    rw [Point.advance]
    have hpost := (takeAccessId_draft hI w hk).and (fetch_any_post (E := fun _ _ => True))
    refine (hpost.mapStop fun _ _ h => h.1).settle _ _
      (fun accessId w' h => ?_) fun _ _ h => .fails h.1
    refine .goes rfl rfl ⟨h.2.1.trans hcounts, ?_⟩ h.1
    rw [h.2.2, Kernel.header, Kernel.objs_modifyObj_self]
    exact congrArg (· + 1) hcounts
  | publish l accessId =>
    obtain rfl := Option.some.inj hl
    rw [Point.advance]
    obtain ⟨rfl, hcounter⟩ := hcounts
    refine (setHeader_any_post.mapStop fun _ w' h => ?_).settle _ _
      (fun _ w' h => ?_) fun _ _ h => h
    · rw [h]
      exact hk
    · rw [h]
      exact .publishes rfl hcounter
  | _ => cases hl

/-- How a creation begins: with its object, or with nothing done. -/
theorem create_begins_post {size : UInt64} {access : AccessMode} :
    Prog.Post (Point.advance b ctx os n id (.create size access)) w
      (fun c' w' => (∃ res, c' = .failed res ∧ w'.kernel = w.kernel) ∨
        ∃ l, c' = .truncate l ∧ l.file.obj = w.kernel.fresh ∧
          Draft (makeBlockNameBasedOnId n.chars id) w.kernel.fresh w'.kernel)
      (fun _ _ => False) (fun _ w' => w'.kernel = w.kernel) := by
  rw [Point.advance]
  refine Prog.Post.settle (Q := fun file w' => file.obj = w.kernel.fresh ∧
      Draft (makeBlockNameBasedOnId n.chars id) w.kernel.fresh w'.kernel)
    (E := fun _ w' => w'.kernel = w.kernel) ?_ _ _ (fun file w' h => ?_) fun res w' h => ?_
  · refine (Prog.Post.assert (Q := fun _ w' => w' = w) (fun _ => rfl) fun _ _ => rfl).bind ?_
    intro _ w1 h1
    refine (Prog.Post.assert (Q := fun _ w' => w' = w) (fun _ => h1) fun _ _ => by rw [h1]).bind ?_
    intro _ w2 h2
    subst h2
    refine createOpen_any_post.mono (fun file w' h => ?_) (fun _ _ h => h) fun _ _ h => h.elim
    obtain ⟨-, hfile, hk⟩ := h
    refine ⟨hfile, ?_, fun o ho => ?_⟩
    · rw [hk, Kernel.header, Kernel.objs_build_fresh]
      rfl
    · rw [hk, Kernel.names_build_self] at ho
      exact (Option.some.inj ho).symm
  · exact .inr ⟨_, rfl, h⟩
  · exact .inl ⟨res, rfl, h⟩

/-! ## The invariant -/

/-- Before the count is written: there is one object to be found, and whoever has found it waits. -/
structure Unborn (path : CString) (obj : Nat) (k : Kernel) (rest : List Point) : Prop where
  named : ∀ o, k.names path = some o → o = obj ∧ (k.header o).refcount = 0
  seen : ∀ p ∈ rest, ∀ o, p.object = some o → o = obj ∧ (k.header o).refcount = 0
  waits : ∀ p ∈ rest, p.past = false

/-- The ids in the order in which the counter gives them out. -/
def accessIdAt (i : Nat) : UInt64 := 1 + UInt64.ofNat i

/-- After it: the creator has the first id, and the handles have the first `count` between them. -/
structure Numbered (path : CString) (obj : Nat) (block : SharedMemoryBlock) (k : Kernel)
    (rest : List Point) (count : Nat) : Prop where
  object : block.obj = obj
  first : block.accessId = 1
  named : ∀ o, k.names path = some o → o = obj
  seen : ∀ p ∈ rest, ∀ o, p.object = some o → o = obj
  issued : Issued accessIdAt count (block.accessId :: rest.filterMap Point.handleId)
  counter : (k.header obj).idCounter = accessIdAt count

/-- A creator that will not go on. -/
def Point.gaveUp : Point → Bool
  | failed _ => true
  | stopped _ => true
  | _ => false

/-- Where the creator stands, and how many ids there are by then. -/
inductive CreatorId (path : CString) (obj : Nat) : Point → Kernel → List Point → Prop
  | begins {size : UInt64} {access : AccessMode} {k : Kernel} {rest : List Point}
      (hfresh : k.fresh = obj) (h : Unborn path obj k rest) :
      CreatorId path obj (.create size access) k rest
  | makes {c : Point} {l : Locals} {k : Kernel} {rest : List Point} (hl : c.building = some l)
      (hobj : l.file.obj = obj) (hcounts : c.Counts k) (hk : Draft path obj k)
      (h : Unborn path obj k rest) : CreatorId path obj c k rest
  | gone {c : Point} {k : Kernel} {rest : List Point} (hc : c.gaveUp = true)
      (h : Unborn path obj k rest) : CreatorId path obj c k rest
  | holds {block : SharedMemoryBlock} {k : Kernel} {rest : List Point} {count : Nat}
      (h : Numbered path obj block k rest count) : CreatorId path obj (.held block) k rest

variable {k k' : Kernel} {rest : List Point} {p p' c : Point} {i : Nat}

theorem Point.handleId_of_past (h : p.past = false) : p.handleId = none := by
  cases p with
  | held block => cases h
  | _ => rfl

theorem Point.handleId_of_drops (h : p.drops = none) : p.handleId = none := by
  cases p with
  | held block => cases h
  | _ => rfl

/-- Nobody has an id before the count is written. -/
theorem Unborn.handleIds (h : Unborn path obj k rest) : rest.filterMap Point.handleId = [] := by
  apply List.filterMap_eq_nil_iff.mpr
  intro p hp
  exact Point.handleId_of_past (h.waits p hp)

/-- A step of the creator that does not write the count. -/
theorem Unborn.of_draft (h : Unborn path obj k rest) (hk : Draft path obj k') :
    Unborn path obj k' rest := by
  refine ⟨?_, ?_, h.waits⟩
  · intro o ho
    obtain rfl := hk.named o ho
    exact ⟨rfl, hk.unborn⟩
  · intro p hp o ho
    obtain ⟨rfl, -⟩ := h.seen p hp o ho
    exact ⟨rfl, hk.unborn⟩

/-- An opener finds nothing but what is under the name. -/
theorem Turn.opener (h : Turn path p k p' k') (hretires : p.retires = false)
    (hdrops : p.drops = none) :
    p'.creates = false ∧ p'.retires = false ∧ k'.names = k.names ∧
      ∀ o, p'.object = some o → p.object = some o ∨ k.names path = some o := by
  cases h with
  | found hl =>
    refine ⟨rfl, rfl, rfl, ?_⟩
    rintro o ⟨rfl⟩
    exact .inr hl
  | observed => exact ⟨rfl, rfl, rfl, fun o ho => .inl ho⟩
  | retained => exact ⟨rfl, rfl, rfl, fun o ho => .inl ho⟩
  | opened => exact ⟨rfl, rfl, rfl, fun o ho => .inl ho⟩
  | released => cases hdrops
  | lastReleased => cases hdrops
  | destroyed => cases hretires
  | unlinked => cases hretires
  | quiet hcreates hobject hcounted hobserves hret =>
    refine ⟨hcreates, ?_, rfl, fun o ho => .inl (hobject o ho)⟩
    rw [Bool.eq_false_iff]
    intro hr
    exact absurd (hret hr) (by simp [hretires])

/-- **Openers wait for the count**: before it is written their steps change nothing. -/
theorem Unborn.turn (h : Unborn path obj k rest) (hget : rest[i]? = some p)
    (hretires : p.retires = false) (hturn : Turn path p k p' k') :
    k' = k ∧ Unborn path obj k (rest.set i p') := by
  have hmem := List.mem_of_getElem? hget
  have hset : ∀ {p' : Point}, (∀ o, p'.object = some o → o = obj ∧ (k.header o).refcount = 0) →
      p'.past = false → Unborn path obj k (rest.set i p') := by
    intro p' hobject hpast
    exact ⟨h.named, forall_mem_set h.seen (fun _ _ hq => hq) hobject,
      forall_mem_set h.waits (fun _ _ hq => hq) hpast⟩
  cases hturn with
  | found hl =>
    refine ⟨rfl, hset ?_ rfl⟩
    rintro o ⟨rfl⟩
    exact h.named _ hl
  | observed hne =>
    -- the count it has seen would have been written
    exact absurd (h.seen _ hmem _ rfl).2 hne
  | retained => exact absurd (h.waits _ hmem) nofun
  | opened => exact absurd (h.waits _ hmem) nofun
  | released => exact absurd (h.waits _ hmem) nofun
  | lastReleased => exact absurd (h.waits _ hmem) nofun
  | destroyed => cases hretires
  | unlinked => cases hretires
  | quiet hcreates hobject hcounted hobserves hret =>
    refine ⟨rfl, hset (fun o ho => h.seen p hmem o (hobject o ho)) ?_⟩
    have hpast := h.waits p hmem
    rw [Point.past, Bool.or_eq_false_iff] at hpast ⊢
    rw [hcounted, Bool.eq_false_iff]
    refine ⟨fun hobs => ?_, hpast.2⟩
    exact absurd (hobserves hobs) (by simp [hpast.1])

theorem accessIdAt_succ (i : Nat) : accessIdAt i + 1 = accessIdAt (i + 1) := by
  rw [accessIdAt, accessIdAt, UInt64.ofNat_add, ← UInt64.add_assoc]
  rfl

theorem accessIdAt_injOn {i j : Nat} (hi : i < 2 ^ 64) (hj : j < 2 ^ 64)
    (h : accessIdAt i = accessIdAt j) : i = j := by
  rw [accessIdAt, accessIdAt, UInt64.add_right_inj] at h
  exact ofNat_injOn hi hj h

/-- The creator writes the count: nobody has an id but itself. -/
theorem Unborn.numbered {l : Locals} (h : Unborn path obj k rest) (hk : Draft path obj k)
    (hobj : l.file.obj = obj) (hcounter : (k.header obj).idCounter = 1 + 1) :
    Numbered path obj (l.block 1) (k.modifyObj obj fun o =>
      { o with header := { o.header with refcount := 1 } }) rest 1 where
  object := hobj
  first := rfl
  named := hk.named
  seen := fun p hp o ho => (h.seen p hp o ho).1
  issued := by
    rw [h.handleIds]
    exact (Issued.zero accessIdAt).next (List.Perm.refl _)
  counter := by
    rw [Kernel.header, Kernel.objs_modifyObj_self]
    exact hcounter

/-- A step of an opener takes the next id, or none. -/
theorem Numbered.turn {block : SharedMemoryBlock} {count : Nat}
    (h : Numbered path obj block k rest count) (hget : rest[i]? = some p)
    (hretires : p.retires = false) (hdrops : p.drops = none) (hturn : Turn path p k p' k')
    (hhanded : Handed p k p' k') : ∃ count', Numbered path obj block k' (rest.set i p') count' := by
  obtain ⟨-, -, hnames, hobject⟩ := hturn.opener hretires hdrops
  have hmem := List.mem_of_getElem? hget
  have hid := Point.handleId_of_drops hdrops
  have hnamed : ∀ o, k'.names path = some o → o = obj := by
    rw [hnames]
    exact h.named
  have hseen : ∀ q ∈ rest.set i p', ∀ o, q.object = some o → o = obj := by
    refine forall_mem_set h.seen (fun _ _ hq => hq) fun o ho => ?_
    rcases hobject o ho with hold | hfound
    · exact h.seen p hmem o hold
    · exact h.named o hfound
  cases hhanded with
  | none hid' hcounter =>
    refine ⟨count, h.object, h.first, hnamed, hseen, ?_, (hcounter obj).trans h.counter⟩
    rw [filterMap_set_of_eq hget (hid'.trans hid.symm)]
    exact h.issued
  | @taken l _ =>
    obtain rfl : l.file.obj = obj := h.seen _ hmem _ rfl
    refine ⟨count + 1, h.object, h.first, hnamed, hseen, h.issued.next ?_, ?_⟩
    · have hnew : Point.handleId (.held (l.block (k.header l.file.obj).idCounter)) =
          some (accessIdAt count) := congrArg some h.counter
      exact ((filterMap_set_perm hget hid hnew).cons _).trans (List.Perm.swap _ _ _)
    · rw [Kernel.header, Kernel.objs_modifyObj_self, ← accessIdAt_succ, ← h.counter]
      rfl

/-- A step of an opener. -/
theorem CreatorId.turn (h : CreatorId path obj c k rest) (hget : rest[i]? = some p)
    (hretires : p.retires = false) (hdrops : p.drops = none) (hturn : Turn path p k p' k')
    (hhanded : Handed p k p' k') : CreatorId path obj c k' (rest.set i p') := by
  cases h with
  | begins hfresh h =>
    obtain ⟨rfl, h⟩ := h.turn hget hretires hturn
    exact .begins hfresh h
  | makes hl hobj hcounts hk h =>
    obtain ⟨rfl, h⟩ := h.turn hget hretires hturn
    exact .makes hl hobj hcounts hk h
  | gone hc h =>
    obtain ⟨rfl, h⟩ := h.turn hget hretires hturn
    exact .gone hc h
  | holds h =>
    obtain ⟨count', h⟩ := h.turn hget hretires hdrops hturn hhanded
    exact .holds h

namespace BlockSys

/-- Nothing is closed. -/
def Keeping (s : BlockSys) : BlockEvent → Prop
  | .step i _ => ∀ p ∈ s.threads[i]?, p.drops = none
  | .open _ => True

instance (s : BlockSys) : (a : BlockEvent) → Decidable (s.Keeping a)
  | .step i _ => inferInstanceAs (Decidable (∀ p ∈ s.threads[i]?, p.drops = none))
  | .open _ => inferInstanceAs (Decidable True)

/-- Thread 0 creates the block, the others open it, and what ids they have is as it should be. -/
def IdOk (path : CString) (obj : Nat) (s : BlockSys) : Prop :=
  ∃ c rest, s.threads = c :: rest ∧ CreatorId path obj c s.kernel rest ∧
    ∀ p ∈ rest, p.creates = false ∧ p.retires = false

variable {s s' : BlockSys} {e : BlockEnv}

/-- **A step of the creator.** -/
theorem creator_step (h : CreatorId (makeBlockNameBasedOnId n.chars id) obj c s.kernel rest)
    (hthreads : s.threads = c :: rest) (hdrops : c.drops = none)
    (hs : BlockSys.step b n id s (.step 0 e) = some s') :
    ∃ c', s'.threads = c' :: rest ∧
      CreatorId (makeBlockNameBasedOnId n.chars id) obj c' s'.kernel rest := by
  obtain ⟨p, hget, hout⟩ := step_thread hs
  obtain rfl : c = p := by
    rw [hthreads] at hget
    exact Option.some.inj hget
  have hset : ∀ p', s.threads.set 0 p' = p' :: rest := by
    intro p'
    rw [hthreads, List.set_cons_zero]
  simp only [hset] at hout
  cases h with
  | @begins size access _ _ hfresh h =>
    have hpost : Prog.Post (Point.advance b e.ctx e.os n id (.create size access))
        ⟨s.kernel, e.proc⟩ _ _ _ := create_begins_post
    rcases hout with ⟨p', w, hadv, rfl⟩ | ⟨why, w, hadv, rfl⟩
    · rcases hpost.of_ret hadv with ⟨res, rfl, hk⟩ | ⟨l, rfl, hobj, hk⟩
      · refine ⟨_, rfl, .gone rfl ?_⟩
        rw [hk]
        exact h
      · rw [hfresh] at hobj hk
        exact ⟨_, rfl, .makes rfl hobj trivial hk (h.of_draft hk)⟩
    · refine ⟨_, rfl, .gone rfl ?_⟩
      rw [show w.kernel = s.kernel from hpost.of_stop hadv]
      exact h
  | makes hl hobj hcounts hk h =>
    have hpost : Prog.Post (c.advance b e.ctx e.os n id) ⟨s.kernel, e.proc⟩ _ _ _ :=
      made_post hl hobj hcounts hk
    rcases hout with ⟨p', w, hadv, rfl⟩ | ⟨why, w, hadv, rfl⟩
    · refine ⟨p', rfl, ?_⟩
      have hmade := hpost.of_ret hadv
      generalize w.kernel = k' at hmade ⊢
      cases hmade with
      | goes hl' hobj' hcounts' hk' => exact .makes hl' hobj' hcounts' hk' (h.of_draft hk')
      | fails hk' => exact .gone rfl (h.of_draft hk')
      | publishes hobj' hcounter => exact .holds (h.numbered hk hobj' hcounter)
    · exact ⟨_, rfl, .gone rfl (h.of_draft (hpost.of_stop hadv))⟩
  | gone hc h =>
    have hstay : c.advance b e.ctx e.os n id ⟨s.kernel, e.proc⟩ = .ret (.ok c) ⟨s.kernel, e.proc⟩ := by
      cases c with
      | failed res => rfl
      | stopped before => rfl
      | _ => cases hc
    rw [hstay] at hout
    rcases hout with ⟨p', w, hadv, rfl⟩ | ⟨why, w, hadv, rfl⟩
    · cases hadv
      exact ⟨c, rfl, .gone hc h⟩
    · cases hadv
  | holds h => cases hdrops

/-- **A step of an opener.** -/
theorem opener_step (h : CreatorId (makeBlockNameBasedOnId n.chars id) obj c s.kernel rest)
    (hopens : ∀ p ∈ rest, p.creates = false ∧ p.retires = false)
    (hthreads : s.threads = c :: rest) (hdrops : ∀ p ∈ rest[i]?, p.drops = none)
    (hs : BlockSys.step b n id s (.step (i + 1) e) = some s') :
    ∃ p', s'.threads = c :: rest.set i p' ∧ p'.creates = false ∧ p'.retires = false ∧
      CreatorId (makeBlockNameBasedOnId n.chars id) obj c s'.kernel (rest.set i p') := by
  obtain ⟨p, hget, hout⟩ := step_thread hs
  rw [hthreads, List.getElem?_cons_succ] at hget
  have hset : ∀ p', s.threads.set (i + 1) p' = c :: rest.set i p' := by
    intro p'
    rw [hthreads, List.set_cons_succ]
  simp only [hset] at hout
  obtain ⟨hcreates, hretires⟩ := hopens p (List.mem_of_getElem? hget)
  have hdrop := hdrops p hget
  have hpost : Prog.Post (p.advance b e.ctx e.os n id) ⟨s.kernel, e.proc⟩ _ _ _ :=
    (Point.turn_post hcreates).and (Point.handed_post hcreates hretires hdrop)
  rcases hout with ⟨p', w, hadv, rfl⟩ | ⟨why, w, hadv, rfl⟩
  · obtain ⟨hturn, hhanded⟩ := hpost.of_ret hadv
    obtain ⟨hcreates', hretires', -⟩ := hturn.opener hretires hdrop
    exact ⟨p', rfl, hcreates', hretires', h.turn hget hretires hdrop hturn hhanded⟩
  · obtain ⟨hk, -⟩ := hpost.of_stop hadv
    have hturn : Turn (makeBlockNameBasedOnId n.chars id) p s.kernel (.stopped p) s.kernel :=
      .quiet hcreates (fun _ ho => ho) rfl nofun fun hr => hr
    refine ⟨.stopped p, rfl, hcreates, hretires, ?_⟩
    rw [hk]
    exact h.turn hget hretires hdrop hturn (.none rfl fun _ => rfl)

theorem idOk_start {k₀ : Kernel} {size : UInt64} {access : AccessMode} (hfree : k₀.names path = none) :
    IdOk path k₀.fresh ⟨k₀, [.create size access]⟩ := by
  refine ⟨_, [], rfl, .begins rfl ⟨?_, nofun, nofun⟩, nofun⟩
  intro o ho
  rw [hfree] at ho
  cases ho

theorem IdOk.step {a : BlockEvent} (h : IdOk (makeBlockNameBasedOnId n.chars id) obj s)
    (ha : s.Keeping a) (hs : BlockSys.step b n id s a = some s') :
    IdOk (makeBlockNameBasedOnId n.chars id) obj s' := by
  obtain ⟨c, rest, hthreads, hcreator, hopens⟩ := h
  cases a with
  | «open» access =>
    cases hs
    have hnew : ∀ {P : Point → Prop}, (∀ q ∈ rest, P q) → P (.lookup access) →
        ∀ q ∈ rest ++ [.lookup access], P q := by
      intro P hold hlookup q hq
      rcases List.mem_append.mp hq with hq | hq
      · exact hold q hq
      · rw [List.mem_singleton.mp hq]
        exact hlookup
    refine ⟨c, rest ++ [.lookup access], ?_, ?_, hnew hopens ⟨rfl, rfl⟩⟩
    · show s.threads ++ [.lookup access] = _
      rw [hthreads, List.cons_append]
    · have hunborn : Unborn (makeBlockNameBasedOnId n.chars id) obj s.kernel rest →
          Unborn (makeBlockNameBasedOnId n.chars id) obj s.kernel (rest ++ [.lookup access]) := by
        intro h
        exact ⟨h.named, hnew h.seen nofun, hnew h.waits rfl⟩
      cases hcreator with
      | begins hfresh h => exact .begins hfresh (hunborn h)
      | makes hl hobj hcounts hk h => exact .makes hl hobj hcounts hk (hunborn h)
      | gone hc h => exact .gone hc (hunborn h)
      | holds h =>
        refine .holds ⟨h.object, h.first, h.named, hnew h.seen nofun, ?_, h.counter⟩
        rw [List.filterMap_append]
        exact (List.append_nil _).symm ▸ h.issued
  | step i e =>
    cases i with
    | zero =>
      have hdrops : c.drops = none := by
        apply ha
        rw [hthreads]
        rfl
      obtain ⟨c', hthreads', hcreator'⟩ := creator_step hcreator hthreads hdrops hs
      exact ⟨c', rest, hthreads', hcreator', hopens⟩
    | succ i =>
      have hdrops : ∀ p ∈ rest[i]?, p.drops = none := by
        intro p hp
        apply ha
        rw [hthreads]
        exact hp
      obtain ⟨p', hthreads', hcreates, hretires, hcreator'⟩ :=
        opener_step hcreator hopens hthreads hdrops hs
      refine ⟨c, rest.set i p', hthreads', hcreator', ?_⟩
      exact forall_mem_set hopens (fun _ _ hq => hq) ⟨hcreates, hretires⟩

/-- Ids while nobody has one. -/
theorem handleIds_unborn (hc : c.handleId = none) (h : Unborn path obj k rest) :
    (c :: rest).filterMap Point.handleId = [] := by
  rw [List.filterMap_cons, hc]
  exact h.handleIds

/-- **No id is given twice**, as long as the counter has not gone all the way round. -/
theorem IdOk.nodup (h : IdOk path obj s) (hfew : s.threads.length ≤ 2 ^ 64) :
    (s.threads.filterMap Point.handleId).Nodup := by
  obtain ⟨c, rest, hthreads, hcreator, -⟩ := h
  rw [hthreads] at hfew ⊢
  cases hcreator with
  | begins hfresh h =>
    rw [handleIds_unborn rfl h]
    exact List.nodup_nil
  | makes hl hobj hcounts hk h =>
    have hc : c.handleId = none := by
      cases c with
      | held block => cases hl
      | _ => rfl
    rw [handleIds_unborn hc h]
    exact List.nodup_nil
  | gone hc h =>
    have hnone : c.handleId = none := by
      cases c with
      | held block => cases hc
      | _ => rfl
    rw [handleIds_unborn hnone h]
    exact List.nodup_nil
  | @holds block _ _ count h =>
    have hcount : count ≤ 2 ^ 64 := by
      have hlen : (rest.filterMap Point.handleId).length + 1 = count := h.issued.length_eq
      rw [← hlen]
      exact (Nat.succ_le_succ (List.length_filterMap_le _ _)).trans hfew
    exact h.issued.nodup fun i hi j hj => accessIdAt_injOn (hi.trans_le hcount) (hj.trans_le hcount)

/-- The creator's id, and whose handles there are. -/
theorem IdOk.creator {block : SharedMemoryBlock} (h : IdOk path obj s)
    (hget : s.threads[0]? = some (.held block)) : block.obj = obj ∧ block.accessId = 1 := by
  obtain ⟨c, rest, hthreads, hcreator, -⟩ := h
  rw [hthreads] at hget
  obtain rfl : c = .held block := Option.some.inj hget
  cases hcreator with
  | makes hl => cases hl
  | gone hc => cases hc
  | holds h => exact ⟨h.object, h.first⟩

end BlockSys

end Ipm
