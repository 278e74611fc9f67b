import Ipm.Block.Steps

/-!
# Opening a block while it is being created

One thread creates a block and any number of others open it, access by access, with nothing closed
and no failure that the state does not imply. The creator writes the reference count last and openers
wait for it, but they read `block_size` before they wait: an opener that finds the object between its
creation and that write sees a size of zero, or no header page at all.

`Punctual` is the condition that no opener reads `block_size` before it is written. Under it every
open that finds the block returns with the creator's size.
-/

set_option autoImplicit false

namespace Ipm

open Lib

/-- An environment that refuses nothing to a block of `size` bytes. -/
structure Os.Answers (os : Os) (size : UInt64) : Prop where
  shmOpen : ∃ fd, os.shmOpen = .ok fd
  ftruncate : os.ftruncate = none
  bodyMmap : Maps os.bodyMmap size
  headerMmap : Maps os.headerMmap memoryPageSize
  mutexInit : os.mutexInit = ⟨0, 0, 0, 0, 0⟩

/-- ... and whose report callback keeps the `ENOENT` of a failed lookup. -/
structure BlockEnv.Answers (e : BlockEnv) (size : UInt64) : Prop where
  os : e.os.Answers size
  report : e.ctx.report .ENOENT = .ENOENT

instance (e : BlockEnv) (size : UInt64) : Decidable (e.Answers size) :=
  decidable_of_iff ((e.os.shmOpen.isOk = true ∧ e.os.ftruncate.isNone = true ∧
      Maps e.os.bodyMmap size ∧ Maps e.os.headerMmap memoryPageSize ∧
      e.os.mutexInit = ⟨0, 0, 0, 0, 0⟩) ∧ e.ctx.report .ENOENT = .ENOENT) <| by
    simp only [isOk_iff, Option.isNone_iff_eq_none]
    exact ⟨fun h => ⟨⟨h.1.1, h.1.2.1, h.1.2.2.1, h.1.2.2.2.1, h.1.2.2.2.2⟩, h.2⟩,
      fun h => ⟨⟨h.os.shmOpen, h.os.ftruncate, h.os.bodyMmap, h.os.headerMmap, h.os.mutexInit⟩,
        h.report⟩⟩

/-- A size a block can be created with. -/
structure Creatable (b : Build) (size : UInt64) : Prop where
  ok : SizeOk b size
  ne_zero : size ≠ 0
  lt : size.toNat + memoryPageSize.toNat < lengthLimit

/-- The fields of the header a creator writes. -/
inductive Field where
  | blockId
  | blockSize
  | idCounter
  | segmentMutex
  | blockName
  | refcount
  deriving DecidableEq, Repr

namespace Point

/-- How many of its steps a creator has done. -/
def stage : Point → Nat
  | create _ _ => 0
  | truncate _ => 1
  | mapBody _ => 2
  | mapHeader _ => 3
  | writeId _ => 4
  | writeSize _ => 5
  | writeCounter _ => 6
  | initMutex _ => 7
  | writeName _ => 8
  | takeFirstId _ => 9
  | publish _ _ => 10
  | held _ => 11
  | _ => 0

/-- The steps a create or an open has left. -/
def left : Point → Nat
  | create _ _ => 11
  | truncate _ => 10
  | mapBody _ => 9
  | mapHeader _ => 8
  | writeId _ => 7
  | writeSize _ => 6
  | writeCounter _ => 5
  | initMutex _ => 4
  | writeName _ => 3
  | takeFirstId _ => 2
  | publish _ _ => 1
  | lookup _ => 9
  | openHeader _ => 8
  | readSize _ => 7
  | openBody _ => 6
  | await _ => 5
  | checkId _ => 4
  | checkName _ => 3
  | retain _ => 2
  | takeId _ => 1
  | _ => 0

/-- The locals of a creator that has its object. -/
def building : Point → Option Locals
  | truncate l => some l
  | mapBody l => some l
  | mapHeader l => some l
  | writeId l => some l
  | writeSize l => some l
  | writeCounter l => some l
  | initMutex l => some l
  | writeName l => some l
  | takeFirstId l => some l
  | publish l _ => some l
  | _ => none

/-- The field the next step of an opener takes from the header. Waiting for `refcount` takes
nothing. -/
def uses : Point → Option Field
  | readSize _ => some .blockSize
  | checkId _ => some .blockId
  | checkName _ => some .blockName
  | retain _ => some .refcount
  | takeId _ => some .idCounter
  | _ => none

end Point

/-- The stage at which the creator has written a field. -/
def Field.written : Field → Nat
  | blockId => 5
  | blockSize => 6
  | idCounter => 7
  | segmentMutex => 8
  | blockName => 9
  | refcount => 11

/-- The object after the first `stage` steps of its creator, up to the last one. -/
def builtAt (n : BlockName) (id size : UInt64) (stage : Nat) : ShmObject :=
  { ShmObject.empty with
    length := if 2 ≤ stage then size.toNat + memoryPageSize.toNat else 0
    header :=
      { segmentMutex := if 8 ≤ stage then .ready else .raw
        refcount := 0
        blockSize := if 6 ≤ stage then size else 0
        idCounter := if 10 ≤ stage then 1 + 1 else if 7 ≤ stage then 1 else 0
        blockId := if 5 ≤ stage then id else 0
        blockName := if 9 ≤ stage then n.chars else [] } }

/-- A block whose creator is done. -/
structure ShmObject.Finished (o : ShmObject) (n : BlockName) (id size : UInt64) : Prop where
  length : memoryPageSize.toNat ≤ o.length
  refcount : o.header.refcount ≠ 0
  blockSize : o.header.blockSize = size
  blockId : o.header.blockId = id
  blockName : o.header.blockName = n.chars

/-- Where the creator stands, and what it has made of the block by then. -/
inductive CreatorAt (n : BlockName) (id size : UInt64) : Point → Kernel → Prop
  | begins {access : AccessMode} {k : Kernel}
      (hfree : k.names (makeBlockNameBasedOnId n.chars id) = none) :
      CreatorAt n id size (.create size access) k
  | builds {c : Point} {l : Locals} {k : Kernel} (hl : c.building = some l) (hsize : l.size = size)
      (hname : k.names (makeBlockNameBasedOnId n.chars id) = some l.file.obj)
      (hobj : k.objs l.file.obj = builtAt n id size c.stage) : CreatorAt n id size c k
  | done {block : SharedMemoryBlock} {k : Kernel} (hsize : block.size = size)
      (hname : k.names (makeBlockNameBasedOnId n.chars id) = some block.obj)
      (hobj : (k.objs block.obj).Finished n id size) : CreatorAt n id size (.held block) k

/-- Where an opener can stand beside a creator that has done `stage` steps. -/
def OpenerAt (path : CString) (size : UInt64) (stage : Nat) (k : Kernel) : Point → Prop
  | .lookup _ => True
  | .missed res => res = .errDoesNotExist
  | .openHeader l => k.names path = some l.file.obj
  | .readSize l => k.names path = some l.file.obj
  | .openBody l => k.names path = some l.file.obj ∧ l.size = size ∧ 6 ≤ stage
  | .await l => k.names path = some l.file.obj ∧ l.size = size ∧ 6 ≤ stage
  | .checkId l => k.names path = some l.file.obj ∧ l.size = size ∧ stage = 11
  | .checkName l => k.names path = some l.file.obj ∧ l.size = size ∧ stage = 11
  | .retain l => k.names path = some l.file.obj ∧ l.size = size ∧ stage = 11
  | .takeId l => k.names path = some l.file.obj ∧ l.size = size ∧ stage = 11
  | .held block => k.names path = some block.obj ∧ block.size = size ∧ stage = 11
  | _ => False

/-! ## The creator -/

variable {b : Build} {ctx : Context} {os : Os} {n : BlockName} {id size : UInt64} {w : World}
variable {path : CString} {file : File} {obj : Nat}

theorem mmap_answers_post {res : Except Failure Nat} {length offset : UInt64} {access : AccessMode}
    {E : IpmResult → World → Prop} {S : Stop → World → Prop} (hmaps : Maps res length) :
    Prog.Post (mmap res file length access offset) w (fun r w' => r.isSome ∧ w'.kernel = w.kernel) E S := by
  refine mmap_cases_post.mapRet fun r w' h => ?_
  cases h with
  | mapped _ hres => exact ⟨rfl, rfl⟩
  | refused hnot => exact absurd hmaps hnot

theorem mapHeader_answers_post {E : IpmResult → World → Prop} {S : Stop → World → Prop}
    (hos : os.Answers size) :
    Prog.Post (mapHeader os file) w (fun _ w' => w'.kernel = w.kernel) E S := by
  refine (mmap_answers_post hos.headerMmap).bind fun r w' h => ?_
  cases r with
  | some addr => exact Prog.Post.pure h.2
  | none => cases h.1

/-- A step of the creator that writes to the header. -/
theorem write_post {f : Header → Header} {stage : Nat} {E : IpmResult → World → Prop}
    {S : Stop → World → Prop} (hobj : w.kernel.objs obj = builtAt n id size stage)
    (hstage : 2 ≤ stage) {o : ShmObject}
    (hf : { builtAt n id size stage with header := f (builtAt n id size stage).header } = o) :
    Prog.Post (setHeader obj f) w
      (fun _ w' => w'.kernel.names = w.kernel.names ∧ w'.kernel.objs obj = o) E S := by
  have hlen : memoryPageSize.toNat ≤ (w.kernel.objs obj).length := by
    rw [hobj]
    simp [builtAt, hstage]
  refine (setHeader_post hlen).mapRet fun _ w' h => ?_
  rw [h]
  refine ⟨rfl, ?_⟩
  rw [Kernel.objs_modifyObj_self, hobj]
  exact hf

section Answers

variable {access : AccessMode} {E : IpmResult → World → Prop} {S : Stop → World → Prop}

/-- A free name is taken, by a size the assertions let through. -/
theorem create_answers_post (hsize : Creatable b size) (hos : os.Answers size)
    (hfree : w.kernel.names path = none) :
    Prog.Post (do
        Prog.assert b ((size &&& memoryPageSizeMask) == 0)
        Prog.assert b (decide (size > 0))
        createOpen ctx os path : Call File) w
      (fun file w' => file.obj = w.kernel.fresh ∧ w'.kernel = w.kernel.link path) E S := by
  have hok : b.ndebug = false → (size &&& memoryPageSizeMask) = 0 ∧ size > 0 := by
    intro hb
    rcases hsize.ok with hn | hok
    · exact absurd (hb.symm.trans hn) nofun
    · exact hok
  refine (Prog.Post.assert_holds fun hb => by simp [(hok hb).1]).bind fun _ w₁ h₁ => ?_
  subst h₁
  refine (Prog.Post.assert_holds fun hb => decide_eq_true (hok hb).2).bind fun _ w₂ h₂ => ?_
  subst h₂
  obtain ⟨fd, hfd⟩ := hos.shmOpen
  simp [createOpen, Prog.post_iff, Prog.bind_apply, shmOpenExcl, hfd, hfree]

theorem createTruncate_answers_post (hos : os.Answers size)
    (hlen : size.toNat + memoryPageSize.toNat < lengthLimit)
    (hobj : w.kernel.objs file.obj = builtAt n id size 1) :
    Prog.Post (createTruncate ctx os path file size) w
      (fun _ w' => w'.kernel.names = w.kernel.names ∧
        w'.kernel.objs file.obj = builtAt n id size 2) E S := by
  have hsum : (size + memoryPageSize).toNat = size.toNat + memoryPageSize.toNat :=
    toNat_add_page (Nat.lt_of_le_of_lt (Nat.le_add_right _ _) hlen)
  have hgrow : (builtAt n id size 1).resize (size.toNat + memoryPageSize.toNat) =
      builtAt n id size 2 := resize_empty _
  simp [createTruncate, Prog.post_iff, Prog.bind_apply, ftruncate, hsum, Nat.not_le.mpr hlen,
    hos.ftruncate, hobj, hgrow]

theorem createMapBody_answers_post (hos : os.Answers size) :
    Prog.Post (createMapBody ctx os path file size access) w (fun _ w' => w'.kernel = w.kernel) E S := by
  refine (mmap_answers_post hos.bodyMmap).bind fun r w' h => ?_
  cases r with
  | some addr => exact Prog.Post.pure h.2
  | none => cases h.1

theorem openMapBody_answers_post {header : Nat} (hos : os.Answers size) :
    Prog.Post (openMapBody ctx os file header size access) w (fun _ w' => w'.kernel = w.kernel) E
      S := by
  refine (mmap_answers_post hos.bodyMmap).bind fun r w' h => ?_
  cases r with
  | some addr => exact Prog.Post.pure h.2
  | none => cases h.1

theorem createMutex_answers_post {header memory : Nat} {mapped : UInt64} (hos : os.Answers size)
    (hobj : w.kernel.objs file.obj = builtAt n id size 7) :
    Prog.Post (createMutex ctx os path file mapped header memory) w
      (fun _ w' => w'.kernel.names = w.kernel.names ∧
        w'.kernel.objs file.obj = builtAt n id size 8) E S := by
  have hinit : ∀ e, ipmMutexInit os.mutexInit e = .success := by
    intro e
    rw [hos.mutexInit]
    rfl
  refine errno_post.bind fun e w1 h1 => ?_
  rw [← h1] at hobj ⊢
  simp only [hinit, ne_eq, not_true_eq_false, if_false]
  exact write_post hobj (by decide) rfl

theorem takeFirstId_post (hobj : w.kernel.objs obj = builtAt n id size 9) :
    Prog.Post (takeAccessId obj) w
      (fun _ w' => w'.kernel.names = w.kernel.names ∧
        w'.kernel.objs obj = builtAt n id size 10) E S := by
  have hlen : memoryPageSize.toNat ≤ (w.kernel.objs obj).length := by
    rw [hobj]
    simp [builtAt]
  refine (takeAccessId_post hlen).mapRet fun _ w' h => ?_
  rw [h.2]
  refine ⟨rfl, ?_⟩
  rw [Kernel.objs_modifyObj_self, hobj]
  rfl

end Answers

/-- What one step of the creator does. -/
structure CreatorStep (n : BlockName) (id size : UInt64) (c : Point) (k : Kernel) (c' : Point)
    (k' : Kernel) : Prop where
  creator : CreatorAt n id size c' k'
  stage : c'.stage = c.stage + 1
  left : c'.left < c.left
  names : c.stage = 0 ∨ k'.names = k.names
  refcount : ∀ block, c' = .held block → (k'.header block.obj).refcount = 1

/-- A step of the creator that does not finish the block. -/
theorem CreatorStep.of_builds {c c' : Point} {l : Locals} {k k' : Kernel}
    (hl : c'.building = some l) (hsize : l.size = size)
    (hname : k'.names (makeBlockNameBasedOnId n.chars id) = some l.file.obj)
    (hobj : k'.objs l.file.obj = builtAt n id size c'.stage) (hstage : c'.stage = c.stage + 1)
    (hleft : c'.left < c.left) (hnames : c.stage = 0 ∨ k'.names = k.names) :
    CreatorStep n id size c k c' k' where
  creator := .builds hl hsize hname hobj
  stage := hstage
  left := hleft
  names := hnames
  refcount := by
    rintro block rfl
    cases hl

/-- **The creator is never refused**: each of its steps goes on to the next one. -/
theorem creator_post {c : Point} (hsize : Creatable b size) (hos : os.Answers size)
    (h : CreatorAt n id size c w.kernel) (hc : c.stage < 11) :
    Prog.Post (c.advance b ctx os n id) w
      (fun c' w' => CreatorStep n id size c w.kernel c' w'.kernel) (fun _ _ => False)
      (fun _ _ => False) := by
  cases h with
  | begins hfree =>
    refine (create_answers_post (E := fun _ _ => False) hsize hos hfree).settle _ _
      (fun file w' h => ?_) fun _ _ h => h.elim
    refine .of_builds rfl rfl ?_ ?_ rfl (Nat.lt_succ_self _) (.inl rfl)
    · rw [h.1, h.2]
      exact Kernel.names_link_self _ _
    · rw [h.1, h.2, Kernel.objs_link_fresh]
      rfl
  | @builds c l _ hl hls hname hobj =>
    -- a step that ends at a point with the same object under the same name
    have hgo : ∀ {c' : Point} {l' : Locals} {w' : World}, c'.building = some l' → l'.size = l.size →
        l'.file = l.file → c'.stage = c.stage + 1 → c'.left < c.left →
        w'.kernel.names = w.kernel.names →
        w'.kernel.objs l.file.obj = builtAt n id size (c.stage + 1) →
        CreatorStep n id size c w.kernel c' w'.kernel := by
      intro c' l' w' hl' hsize' hfile hstage hleft hnames hobj'
      refine .of_builds hl' (hsize'.trans hls) ?_ ?_ hstage hleft (.inr hnames)
      · rw [hnames, hfile]
        exact hname
      · rw [hfile, hstage]
        exact hobj'
    have hwrite : ∀ {f : Header → Header} {c' : Point}, 2 ≤ c.stage →
        { builtAt n id size c.stage with header := f (builtAt n id size c.stage).header } =
          builtAt n id size (c.stage + 1) →
        c'.building = some l → c'.stage = c.stage + 1 → c'.left < c.left →
        Prog.Post ((setHeader l.file.obj f).settle (fun _ => c') .failed) w
          (fun c' w' => CreatorStep n id size c w.kernel c' w'.kernel) (fun _ _ => False)
          (fun _ _ => False) := by
      intro f c' htwo hf hl' hstage hleft
      refine (write_post (E := fun _ _ => False) hobj htwo hf).settle _ _ (fun _ w' h => ?_)
        fun _ _ h => h.elim
      exact hgo hl' rfl rfl hstage hleft h.1 h.2
    cases c with
    | truncate l =>
      obtain rfl := Option.some.inj hl
      rw [Point.advance, hls]
      refine (createTruncate_answers_post (E := fun _ _ => False) hos hsize.lt hobj).settle _ _
        (fun _ w' h => ?_) fun _ _ h => h.elim
      exact hgo rfl rfl rfl rfl (Nat.lt_succ_self _) h.1 h.2
    | mapBody l =>
      obtain rfl := Option.some.inj hl
      rw [Point.advance]
      refine (createMapBody_answers_post (E := fun _ _ => False) (hls.symm ▸ hos)).settle _ _
        (fun _ w' h => ?_) fun _ _ h => h.elim
      exact hgo rfl rfl rfl rfl (Nat.lt_succ_self _) (by rw [h]) (by rw [h]; exact hobj)
    | mapHeader l =>
      obtain rfl := Option.some.inj hl
      rw [Point.advance]
      refine (mapHeader_answers_post (E := fun _ _ => False) hos).settle _ _
        (fun _ w' h => ?_) fun _ _ h => h.elim
      exact hgo rfl rfl rfl rfl (Nat.lt_succ_self _) (by rw [h]) (by rw [h]; exact hobj)
    | writeId l =>
      obtain rfl := Option.some.inj hl
      rw [Point.advance]
      exact hwrite (by simp [Point.stage]) rfl rfl rfl (Nat.lt_succ_self _)
    | writeSize l =>
      obtain rfl := Option.some.inj hl
      rw [Point.advance, hls]
      exact hwrite (by simp [Point.stage]) rfl rfl rfl (Nat.lt_succ_self _)
    | writeCounter l =>
      obtain rfl := Option.some.inj hl
      rw [Point.advance]
      exact hwrite (by simp [Point.stage]) rfl rfl rfl (Nat.lt_succ_self _)
    | initMutex l =>
      obtain rfl := Option.some.inj hl
      rw [Point.advance]
      refine (createMutex_answers_post (E := fun _ _ => False) hos hobj).settle _ _
        (fun _ w' h => ?_) fun _ _ h => h.elim
      exact hgo rfl rfl rfl rfl (Nat.lt_succ_self _) h.1 h.2
    | writeName l =>
      obtain rfl := Option.some.inj hl
      rw [Point.advance]
      exact hwrite (by simp [Point.stage]) rfl rfl rfl (Nat.lt_succ_self _)
    | takeFirstId l =>
      obtain rfl := Option.some.inj hl
      rw [Point.advance]
      refine (takeFirstId_post (E := fun _ _ => False) hobj).settle _ _ (fun _ w' h => ?_)
        fun _ _ h => h.elim
      exact hgo rfl rfl rfl rfl (Nat.lt_succ_self _) h.1 h.2
    | publish l accessId =>
      obtain rfl := Option.some.inj hl
      rw [Point.advance]
      refine (write_post (E := fun _ _ => False) hobj (by simp [Point.stage]) rfl).settle _ _
        (fun _ w' h => ?_) fun _ _ h => h.elim
      refine ⟨.done hls (by rw [h.1]; exact hname) ?_, rfl, Nat.lt_succ_self _, .inr h.1, ?_⟩
      · change (w'.kernel.objs l.file.obj).Finished n id size
        rw [h.2]
        have hone : (1 : UInt32) ≠ 0 := by decide
        exact ⟨Nat.le_add_left _ _, hone, rfl, rfl, rfl⟩
      · rintro block ⟨rfl⟩
        change (w'.kernel.objs l.file.obj).header.refcount = 1
        rw [h.2]
    | _ => cases hl
  | done => exact absurd hc (lt_irrefl 11)

/-! ## An opener -/

namespace CreatorAt

variable {c : Point} {k : Kernel}

theorem stage_of_building {l : Locals} (hl : c.building = some l) : 1 ≤ c.stage ∧ c.stage < 11 := by
  cases c <;> simp_all [Point.building, Point.stage]

/-- A creator that has its object is on its way, and takes nothing from the header. -/
theorem running_of_building {l : Locals} (hl : c.building = some l) :
    c.result = none ∧ c.uses = none ∧ c.counted = false ∧ 0 < c.left := by
  cases c <;>
    simp_all [Point.building, Point.result, Point.uses, Point.counted, Point.left]

/-- What the block's name leads to, by how far the creator is. -/
theorem object (h : CreatorAt n id size c k)
    (hl : k.names (makeBlockNameBasedOnId n.chars id) = some obj) :
    c.stage < 11 ∧ k.objs obj = builtAt n id size c.stage ∨
      c.stage = 11 ∧ (k.objs obj).Finished n id size := by
  cases h with
  | begins hfree => cases hfree.symm.trans hl
  | builds hb _ hname hobj =>
    obtain rfl := Option.some.inj (hname.symm.trans hl)
    exact .inl ⟨(stage_of_building hb).2, hobj⟩
  | done _ hname hobj =>
    obtain rfl := Option.some.inj (hname.symm.trans hl)
    exact .inr ⟨rfl, hobj⟩

theorem length (h : CreatorAt n id size c k)
    (hl : k.names (makeBlockNameBasedOnId n.chars id) = some obj) (hstage : 2 ≤ c.stage) :
    memoryPageSize.toNat ≤ (k.objs obj).length := by
  rcases h.object hl with ⟨-, hobj⟩ | ⟨-, hobj⟩
  · rw [hobj]
    simp [builtAt, hstage]
  · exact hobj.length

theorem blockSize (h : CreatorAt n id size c k)
    (hl : k.names (makeBlockNameBasedOnId n.chars id) = some obj) (hstage : 6 ≤ c.stage) :
    (k.header obj).blockSize = size := by
  rcases h.object hl with ⟨-, hobj⟩ | ⟨-, hobj⟩
  · rw [Kernel.header, hobj]
    simp [builtAt, hstage]
  · exact hobj.blockSize

theorem finished (h : CreatorAt n id size c k)
    (hl : k.names (makeBlockNameBasedOnId n.chars id) = some obj) (hstage : c.stage = 11) :
    (k.objs obj).Finished n id size := by
  rcases h.object hl with ⟨hlt, -⟩ | ⟨-, hobj⟩
  · exact absurd hstage hlt.ne
  · exact hobj

/-- The count is zero until the last step. -/
theorem refcount (h : CreatorAt n id size c k)
    (hl : k.names (makeBlockNameBasedOnId n.chars id) = some obj) (hstage : c.stage < 11) :
    (k.header obj).refcount = 0 := by
  rcases h.object hl with ⟨-, hobj⟩ | ⟨heq, -⟩
  · rw [Kernel.header, hobj]
    rfl
  · exact absurd heq hstage.ne

end CreatorAt

theorem ShmObject.Finished.serves {o : ShmObject} (h : o.Finished n id size) : o.Serves n id :=
  ⟨h.length, h.refcount, h.blockId, h.blockName⟩

/-- What one step of an opener does. -/
structure OpenerStep (path : CString) (size : UInt64) (stage : Nat) (p : Point) (k : Kernel)
    (p' : Point) (k' : Kernel) : Prop where
  opener : OpenerAt path size stage k' p'
  left : p'.left < p.left
  missed : ∀ res, p' = .missed res → k.names path = none
  effect : (k' = k ∧ p'.counted = p.counted) ∨
    (∃ l, p = .retain l ∧ p' = .takeId l ∧ k' = k.modifyObj l.file.obj fun o =>
      { o with header := { o.header with refcount := o.header.refcount + 1 } }) ∨
    ∃ l accessId, p = .takeId l ∧ p' = .held (l.block accessId) ∧
      k' = k.modifyObj l.file.obj fun o =>
        { o with header := { o.header with idCounter := o.header.idCounter + 1 } }

/-- A step of an opener that leaves shared state alone. -/
theorem OpenerStep.quiet {stage : Nat} {p p' : Point} {k k' : Kernel} (hk : k' = k)
    (hopener : OpenerAt path size stage k p') (hleft : p'.left < p.left)
    (hmissed : ∀ res, p' = .missed res → k.names path = none) (hcounted : p'.counted = p.counted) :
    OpenerStep path size stage p k p' k' := by
  subst hk
  exact ⟨hopener, hleft, hmissed, .inl ⟨rfl, hcounted⟩⟩

/-- One that has not come to its end. -/
theorem OpenerStep.onward {stage : Nat} {p p' : Point} {k k' : Kernel} (hk : k' = k)
    (hopener : OpenerAt path size stage k p') (hleft : p'.left < p.left)
    (hruns : p'.result = none) (hcounted : p'.counted = p.counted) :
    OpenerStep path size stage p k p' k' := by
  apply OpenerStep.quiet hk hopener hleft ?_ hcounted
  intro res hmissed
  rw [hmissed] at hruns
  cases hruns

/-- **An opener is refused only a block that is not there**, and waits only for the creator. -/
theorem opener_post {c p : Point} (hos : os.Answers size)
    (hreport : ctx.report .ENOENT = .ENOENT) (hc : CreatorAt n id size c w.kernel)
    (hp : OpenerAt (makeBlockNameBasedOnId n.chars id) size c.stage w.kernel p)
    (hrun : p.result = none) (hread : p.uses = some .blockSize → 6 ≤ c.stage) :
    Prog.Post (p.advance b ctx os n id) w
      (fun p' w' => OpenerStep (makeBlockNameBasedOnId n.chars id) size c.stage p w.kernel p'
        w'.kernel)
      (fun _ _ => False) (fun why _ => why = .spin ∧ c.stage < 11) := by
  cases p with
  | lookup access =>
    rw [Point.advance]
    obtain ⟨fd, hfd⟩ := hos.shmOpen
    cases hname : w.kernel.names (makeBlockNameBasedOnId n.chars id) with
    | none =>
      refine Prog.Post.settle (Q := fun _ _ => False)
        (E := fun e w' => e = .errDoesNotExist ∧ w'.kernel = w.kernel) ?_ _ _
        (fun _ _ h => h.elim) fun e w' h => ?_
      · simp [openLookup, Prog.post_iff, Prog.bind_apply, shmOpen, hfd, hname, errno,
          World.setErrno, ipmError, hreport, lookupError]
      · exact .quiet h.2 h.1 (Nat.succ_pos _) (fun _ _ => hname) rfl
    | some obj =>
      refine Prog.Post.settle (Q := fun file w' => file.obj = obj ∧ w'.kernel = w.kernel)
        (E := fun _ _ => False) ?_ _ _ (fun file w' h => ?_) fun _ _ h => h.elim
      · simp [openLookup, Prog.post_iff, Prog.bind_apply, shmOpen, hfd, hname]
      · refine .onward h.2 ?_ (Nat.lt_succ_self _) rfl rfl
        rw [OpenerAt, h.1]
        exact hname
  | openHeader l =>
    rw [Point.advance]
    refine (mapHeader_answers_post (E := fun _ _ => False) hos).settle _ _ (fun header w' h => ?_)
      fun _ _ h => h.elim
    exact .onward h hp (Nat.lt_succ_self _) rfl rfl
  | readSize l =>
    rw [Point.advance]
    have hsix : 6 ≤ c.stage := hread rfl
    refine (readSize_post (E := fun _ _ => False)
      (hc.length hp (le_trans (by decide) hsix))).settle _ _ (fun read w' h => ?_)
      fun _ _ h => h.elim
    refine .onward (by rw [h.1]) ⟨hp, ?_, hsix⟩ (Nat.lt_succ_self _) rfl rfl
    rw [h.2]
    exact hc.blockSize hp hsix
  | openBody l =>
    obtain ⟨hname, hls, hsix⟩ := hp
    rw [Point.advance]
    refine (openMapBody_answers_post (E := fun _ _ => False) (hls.symm ▸ hos)).settle _ _
      (fun memory w' h => ?_) fun _ _ h => h.elim
    exact .onward h ⟨hname, hls, hsix⟩ (Nat.lt_succ_self _) rfl rfl
  | await l =>
    obtain ⟨hname, hls, hsix⟩ := hp
    rw [Point.advance]
    have hthere := hc.length hname (le_trans (by decide) hsix)
    refine ((awaitRefcount_there_post (E := fun _ _ => False) hthere).mapStop ?_).settle _ _
      (fun _ w' h => ?_) fun _ _ h => h.elim
    · rintro why w' ⟨⟨hspin, hzero⟩, -⟩
      rcases hc.object hname with ⟨hstage, -⟩ | ⟨-, hobj⟩
      · exact ⟨hspin, hstage⟩
      · exact absurd hzero hobj.refcount
    · -- the count is written last
      rcases hc.object hname with ⟨hstage, -⟩ | ⟨hstage, -⟩
      · exact absurd (hc.refcount hname hstage) h.2
      · exact .onward (by rw [h.1]) ⟨hname, hls, hstage⟩ (Nat.lt_succ_self _) rfl rfl
  | checkId l =>
    obtain ⟨hname, hls, hstage⟩ := hp
    rw [Point.advance]
    refine (checkBlockId_post (E := fun _ _ => False) (hc.finished hname hstage).serves).settle _ _
      (fun _ w' h => ?_) fun _ _ h => h.elim
    exact .onward (by rw [h]) ⟨hname, hls, hstage⟩ (Nat.lt_succ_self _) rfl rfl
  | checkName l =>
    obtain ⟨hname, hls, hstage⟩ := hp
    rw [Point.advance]
    refine (checkBlockName_post (E := fun _ _ => False)
      (hc.finished hname hstage).serves).settle _ _ (fun _ w' h => ?_) fun _ _ h => h.elim
    exact .onward (by rw [h]) ⟨hname, hls, hstage⟩ (Nat.lt_succ_self _) rfl rfl
  | retain l =>
    obtain ⟨hname, hls, hstage⟩ := hp
    rw [Point.advance]
    refine (setHeader_post (E := fun _ _ => False)
      (hc.finished hname hstage).length).settle _ _ (fun _ w' h => ?_) fun _ _ h => h.elim
    rw [h]
    refine ⟨⟨hname, hls, hstage⟩, Nat.lt_succ_self _, ?_, .inr (.inl ⟨l, rfl, rfl, rfl⟩)⟩
    intro res hmissed
    cases hmissed
  | takeId l =>
    obtain ⟨hname, hls, hstage⟩ := hp
    rw [Point.advance]
    refine (takeAccessId_post (E := fun _ _ => False)
      (hc.finished hname hstage).length).settle _ _ (fun accessId w' h => ?_) fun _ _ h => h.elim
    rw [h.2]
    refine ⟨⟨hname, hls, hstage⟩, Nat.lt_succ_self _, ?_,
      .inr (.inr ⟨l, accessId, rfl, rfl, rfl⟩)⟩
    intro res hmissed
    cases hmissed
  | held block => cases hrun
  | missed res => cases hrun
  | _ => exact hp.elim

/-! ## The creator and its openers -/

theorem CreatorAt.stage_lt {c : Point} {k : Kernel} (h : CreatorAt n id size c k)
    (hrun : c.result = none) : c.stage < 11 := by
  cases h with
  | begins => exact Nat.succ_pos _
  | builds hl => exact (stage_of_building hl).2
  | done => cases hrun

theorem CreatorAt.counted {c : Point} {k : Kernel} (h : CreatorAt n id size c k)
    (hlt : c.stage < 11) : c.counted = false := by
  cases h with
  | begins => rfl
  | builds hl => exact (running_of_building hl).2.2.1
  | done => exact absurd hlt (lt_irrefl 11)

/-- Openers do not disturb a creator. -/
theorem CreatorAt.opener_step {c p p' : Point} {k k' : Kernel} (h : CreatorAt n id size c k)
    (hstep : OpenerStep (makeBlockNameBasedOnId n.chars id) size c.stage p k p' k')
    (hp : OpenerAt (makeBlockNameBasedOnId n.chars id) size c.stage k p)
    (hcount : ∀ l, p = .retain l → p' = .takeId l → (k.header l.file.obj).refcount + 1 ≠ 0) :
    CreatorAt n id size c k' := by
  -- only a finished block is touched, and only its counters
  have htouch : ∀ (l : Locals) (f : ShmObject → ShmObject),
      k.names (makeBlockNameBasedOnId n.chars id) = some l.file.obj → c.stage = 11 →
      ((k.objs l.file.obj).Finished n id size → (f (k.objs l.file.obj)).Finished n id size) →
      CreatorAt n id size c (k.modifyObj l.file.obj f) := by
    intro l f hname hstage hf
    cases h with
    | begins hfree => cases hfree.symm.trans hname
    | builds hl => exact absurd hstage (stage_of_building hl).2.ne
    | @done block _ hsize hname' hobj =>
      have hsame : l.file.obj = block.obj := Option.some.inj (hname.symm.trans hname')
      refine .done hsize hname' ?_
      rw [← hsame] at hobj ⊢
      rw [Kernel.objs_modifyObj_self]
      exact hf hobj
  rcases hstep.effect with ⟨rfl, -⟩ | ⟨l, rfl, hp', rfl⟩ | ⟨l, accessId, rfl, -, rfl⟩
  · exact h
  · obtain ⟨hname, -, hstage⟩ := hp
    exact htouch l _ hname hstage fun hf =>
      ⟨hf.length, hcount l rfl hp', hf.blockSize, hf.blockId, hf.blockName⟩
  · obtain ⟨hname, -, hstage⟩ := hp
    exact htouch l _ hname hstage fun hf =>
      ⟨hf.length, hf.refcount, hf.blockSize, hf.blockId, hf.blockName⟩

/-- The creator does not disturb openers. -/
theorem OpenerAt.creator_step {stage : Nat} {p : Point} {k k' : Kernel}
    (h : OpenerAt path size stage k p) (hlt : stage < 11)
    (hnames : ∀ o, k.names path = some o → k'.names path = some o) :
    OpenerAt path size (stage + 1) k' p := by
  cases p with
  | lookup access => trivial
  | missed res => exact h
  | openHeader l => exact hnames _ h
  | readSize l => exact hnames _ h
  | openBody l => exact ⟨hnames _ h.1, h.2.1, Nat.le_succ_of_le h.2.2⟩
  | await l => exact ⟨hnames _ h.1, h.2.1, Nat.le_succ_of_le h.2.2⟩
  | checkId l => exact absurd h.2.2 hlt.ne
  | checkName l => exact absurd h.2.2 hlt.ne
  | retain l => exact absurd h.2.2 hlt.ne
  | takeId l => exact absurd h.2.2 hlt.ne
  | held block => exact absurd h.2.2 hlt.ne
  | _ => exact h.elim

/-- Openers do not disturb each other. -/
theorem OpenerAt.congr {stage : Nat} {p : Point} {k k' : Kernel} (h : OpenerAt path size stage k p)
    (hnames : k'.names path = k.names path) : OpenerAt path size stage k' p := by
  cases p with
  | lookup access => trivial
  | missed res => exact h
  | _ => first | exact h.elim | (simp only [OpenerAt, hnames] at h ⊢; exact h)

theorem OpenerAt.counted {stage : Nat} {p : Point} {k : Kernel} (h : OpenerAt path size stage k p)
    (hlt : stage < 11) : p.counted = false := by
  cases p with
  | takeId l => exact absurd h.2.2 hlt.ne
  | held block => exact absurd h.2.2 hlt.ne
  | stopped before => exact h.elim
  | _ => rfl

namespace BlockSys

/-- No failure but those the state implies, and a call that has returned stays returned. -/
def Answered (size : UInt64) (s : BlockSys) : BlockEvent → Prop
  | .open _ => True
  | .step i e => e.Answers size ∧ ∀ p ∈ s.threads[i]?, p.result = none

instance (size : UInt64) (s : BlockSys) : (a : BlockEvent) → Decidable (s.Answered size a)
  | .open _ => inferInstanceAs (Decidable True)
  | .step i e => inferInstanceAs (Decidable (e.Answers size ∧ ∀ p ∈ s.threads[i]?, p.result = none))

/-- No opener reads `block_size` before the creator, thread 0, has written it; and there are fewer
than `2 ^ 32` threads. -/
def Punctual (s : BlockSys) : BlockEvent → Prop
  | .open _ => s.threads.length + 1 < 2 ^ 32
  | .step i _ => ∀ p ∈ s.threads[i]?, p.uses = some .blockSize →
      ∀ c ∈ s.threads[0]?, Field.blockSize.written ≤ c.stage

instance (s : BlockSys) : (a : BlockEvent) → Decidable (s.Punctual a)
  | .open _ => inferInstanceAs (Decidable (s.threads.length + 1 < 2 ^ 32))
  | .step i _ => inferInstanceAs (Decidable (∀ p ∈ s.threads[i]?, p.uses = some .blockSize →
      ∀ c ∈ s.threads[0]?, Field.blockSize.written ≤ c.stage))

/-- The creator is thread 0, at `c`; the others open. -/
structure HandshakeOk (n : BlockName) (id size : UInt64) (c : Point) (s : BlockSys) : Prop where
  head : s.threads[0]? = some c
  creator : CreatorAt n id size c s.kernel
  openers : ∀ j p, j ≠ 0 → s.threads[j]? = some p →
    OpenerAt (makeBlockNameBasedOnId n.chars id) size c.stage s.kernel p
  count : ∀ obj, s.kernel.names (makeBlockNameBasedOnId n.chars id) = some obj →
    (s.kernel.header obj).refcount.toNat = s.threads.countP Point.counted
  few : s.threads.length < 2 ^ 32

variable {s s' : BlockSys} {c c' p p' : Point} {i : Nat} {k' : Kernel} {e : BlockEnv}

theorem HandshakeOk.uncounted (h : HandshakeOk n id size c s) (hlt : c.stage < 11) :
    s.threads.countP Point.counted = 0 := by
  refine List.countP_eq_zero.mpr fun q hq => ?_
  obtain ⟨j, hj⟩ := List.mem_iff_getElem?.mp hq
  by_cases hzero : j = 0
  · subst hzero
    obtain rfl := Option.some.inj (h.head.symm.trans hj)
    simp [h.creator.counted hlt]
  · simp [(h.openers j q hzero hj).counted hlt]

theorem HandshakeOk.creator_step (h : HandshakeOk n id size c s) (hlt : c.stage < 11)
    (hstep : CreatorStep n id size c s.kernel c' k') :
    HandshakeOk n id size c' ⟨k', s.threads.set 0 c'⟩ := by
  have hset := countP_set_add Point.counted h.head c'
  rw [h.uncounted hlt, h.creator.counted hlt] at hset
  refine ⟨?_, hstep.creator, fun j q hj hq => ?_, fun obj hl => ?_, ?_⟩
  · obtain ⟨hpos, -⟩ := List.getElem?_eq_some_iff.mp h.head
    rw [List.getElem?_set_self hpos]
  · rw [List.getElem?_set_ne hj.symm] at hq
    rw [hstep.stage]
    refine (h.openers j q hj hq).creator_step hlt fun o ho => ?_
    rcases hstep.names with hzero | hnames
    · -- before its first step there is nothing under the name
      cases h.creator with
      | begins hfree => cases hfree.symm.trans ho
      | builds hl => exact absurd hzero (Nat.one_le_iff_ne_zero.mp (CreatorAt.stage_of_building hl).1)
      | done => cases hzero
    · rw [hnames]
      exact ho
  · cases hcr : hstep.creator with
    | begins => exact absurd hstep.stage (Nat.succ_ne_zero _).symm
    | builds hb =>
      have hlt' := (CreatorAt.stage_of_building hb).2
      rw [hstep.creator.counted hlt'] at hset
      rw [hstep.creator.refcount hl hlt']
      exact hset.symm
    | @done block _ _ hname _ =>
      obtain rfl : block.obj = obj := Option.some.inj (hname.symm.trans hl)
      rw [hstep.refcount block rfl]
      exact hset.symm
  · rw [List.length_set]
    exact h.few

theorem HandshakeOk.opener_step (h : HandshakeOk n id size c s) (hi : i ≠ 0)
    (hget : s.threads[i]? = some p)
    (hstep : OpenerStep (makeBlockNameBasedOnId n.chars id) size c.stage p s.kernel p' k') :
    HandshakeOk n id size c ⟨k', s.threads.set i p'⟩ := by
  have hset := countP_set_add Point.counted hget p'
  have hp := h.openers i p hi hget
  have hnames : k'.names = s.kernel.names := by
    rcases hstep.effect with ⟨rfl, -⟩ | ⟨l, -, -, rfl⟩ | ⟨l, accessId, -, -, rfl⟩ <;> rfl
  -- one more reference is still no more than there are threads
  have hretain : ∀ l, p = .retain l → p' = .takeId l →
      ((s.kernel.header l.file.obj).refcount + 1).toNat =
        (s.threads.set i p').countP Point.counted := by
    rintro l rfl rfl
    have hle := List.countP_le_length (p := Point.counted) (l := s.threads.set i (.takeId l))
    rw [List.length_set] at hle
    simp only [Point.counted, Bool.false_eq_true, if_false, if_true, Nat.add_zero] at hset
    rw [UInt32.toNat_add, h.count _ hp.1, hset]
    refine Nat.mod_eq_of_lt ?_
    rw [hset] at hle
    exact hle.trans_lt h.few
  refine ⟨?_, h.creator.opener_step hstep hp fun l hl hl' hzero => ?_, fun j q hj hq => ?_,
    fun obj hl => ?_, ?_⟩
  · rw [List.getElem?_set_ne hi]
    exact h.head
  · have hcount := hretain l hl hl'
    rw [hzero] at hcount
    have hnone := List.countP_eq_zero.mp hcount.symm p' (mem_set_self hget p')
    rw [hl'] at hnone
    exact hnone rfl
  · by_cases hji : j = i
    · subst hji
      obtain ⟨hlt, -⟩ := List.getElem?_eq_some_iff.mp hget
      rw [List.getElem?_set_self hlt] at hq
      obtain rfl := Option.some.inj hq
      exact hstep.opener
    · rw [List.getElem?_set_ne (Ne.symm hji)] at hq
      refine (h.openers j q hj hq).congr ?_
      rw [hnames]
  · rw [hnames] at hl
    rcases hstep.effect with ⟨rfl, hcounted⟩ | ⟨l, heq, heq', rfl⟩ | ⟨l, accessId, rfl, rfl, rfl⟩
    · rw [hcounted] at hset
      rw [h.count obj hl]
      exact (Nat.add_right_cancel hset).symm
    · subst heq
      obtain rfl : l.file.obj = obj := Option.some.inj (hp.1.symm.trans hl)
      rw [Kernel.header, Kernel.objs_modifyObj_self]
      exact hretain l rfl heq'
    · obtain rfl : l.file.obj = obj := Option.some.inj (hp.1.symm.trans hl)
      rw [Kernel.header, Kernel.objs_modifyObj_self]
      exact (h.count _ hl).trans (Nat.add_right_cancel hset).symm
  · rw [List.length_set]
    exact h.few

/-- What the next access of a thread comes to: it goes on, or it waits for the creator. -/
theorem HandshakeOk.advance (hsize : Creatable b size) (h : HandshakeOk n id size c s)
    (he : e.Answers size) (hget : s.threads[i]? = some p) (hrun : p.result = none)
    (hpunctual : p.uses = some .blockSize → Field.blockSize.written ≤ c.stage) :
    (∃ p' c' w, p.advance b e.ctx e.os n id ⟨s.kernel, e.proc⟩ = .ret (.ok p') w ∧
      p'.left < p.left ∧
      (∀ res, p' = .missed res → s.kernel.names (makeBlockNameBasedOnId n.chars id) = none) ∧
      HandshakeOk n id size c' ⟨w.kernel, s.threads.set i p'⟩) ∨
    (∃ w, p.advance b e.ctx e.os n id ⟨s.kernel, e.proc⟩ = .stop .spin w) ∧ c.stage < 11 ∧
      i ≠ 0 := by
  by_cases hi : i = 0
  · subst hi
    obtain rfl := Option.some.inj (h.head.symm.trans hget)
    have hlt := h.creator.stage_lt hrun
    have hpost : Prog.Post (c.advance b e.ctx e.os n id) ⟨s.kernel, e.proc⟩ _ _ _ :=
      creator_post hsize he.os h.creator hlt
    obtain ⟨c', w, hret, hstep⟩ := hpost.exists_ret (fun _ _ h => h) fun _ _ h => h
    refine .inl ⟨c', c', w, hret, hstep.left, ?_, h.creator_step hlt hstep⟩
    rintro res rfl
    exact absurd hstep.stage (Nat.succ_ne_zero _).symm
  · have hpost : Prog.Post (p.advance b e.ctx e.os n id) ⟨s.kernel, e.proc⟩ _ _ _ :=
      opener_post he.os he.report h.creator (h.openers i p hi hget) hrun hpunctual
    cases hadv : p.advance b e.ctx e.os n id ⟨s.kernel, e.proc⟩ with
    | ret r w =>
      cases r with
      | ok p' =>
        have hstep := hpost.of_ret hadv
        exact .inl ⟨p', c, w, rfl, hstep.left, hstep.missed, h.opener_step hi hget hstep⟩
      | error res => exact (hpost.of_error hadv).elim
    | stop why w =>
      obtain ⟨rfl, hlt⟩ := hpost.of_stop hadv
      exact .inr ⟨⟨w, rfl⟩, hlt, hi⟩

/-- A step of a thread that is not waiting. -/
theorem HandshakeOk.step_thread (hsize : Creatable b size) (h : HandshakeOk n id size c s)
    (ha : s.Answered size (.step i e)) (hp : s.Punctual (.step i e))
    (hs : BlockSys.step b n id s (.step i e) = some s') :
    ∃ p p' c', s.threads[i]? = some p ∧ s'.threads = s.threads.set i p' ∧ p'.left < p.left ∧
      (∀ res, p' = .missed res → s.kernel.names (makeBlockNameBasedOnId n.chars id) = none) ∧
      HandshakeOk n id size c' s' := by
  obtain ⟨p, hget, hout⟩ := Option.bind_eq_some_iff.mp hs
  have hpunctual : p.uses = some .blockSize → Field.blockSize.written ≤ c.stage :=
    fun huses => hp p hget huses c h.head
  rcases h.advance hsize ha.1 hget (ha.2 p hget) hpunctual with
    ⟨p', c', w, hadv, hleft, hmissed, hok⟩ | ⟨⟨w, hadv⟩, -⟩
  · rw [hadv] at hout
    cases hout
    exact ⟨p, p', c', hget, rfl, hleft, hmissed, hok⟩
  · rw [hadv] at hout
    cases hout

theorem HandshakeOk.open (h : HandshakeOk n id size c s) (access : AccessMode)
    (hfew : s.threads.length + 1 < 2 ^ 32) :
    HandshakeOk n id size c { s with threads := s.threads ++ [.lookup access] } := by
  obtain ⟨hpos, -⟩ := List.getElem?_eq_some_iff.mp h.head
  refine ⟨?_, h.creator, fun j q hj hq => ?_, fun obj hl => ?_, ?_⟩
  · rw [List.getElem?_append_left hpos]
    exact h.head
  · by_cases hlt : j < s.threads.length
    · rw [List.getElem?_append_left hlt] at hq
      exact h.openers j q hj hq
    · rw [List.getElem?_append_right (Nat.le_of_not_lt hlt)] at hq
      obtain rfl : q = .lookup access := List.mem_singleton.mp (List.mem_of_getElem? hq)
      trivial
  · rw [List.countP_append]
    exact h.count obj hl
  · rw [List.length_append]
    exact hfew

theorem HandshakeOk.step {a : BlockEvent} (hsize : Creatable b size) (h : HandshakeOk n id size c s)
    (ha : s.Answered size a) (hp : s.Punctual a) (hs : BlockSys.step b n id s a = some s') :
    ∃ c', HandshakeOk n id size c' s' := by
  cases a with
  | «open» access =>
    cases hs
    exact ⟨c, h.open access hp⟩
  | step i e =>
    obtain ⟨-, -, c', -, -, -, -, hok⟩ := h.step_thread hsize ha hp hs
    exact ⟨c', hok⟩

/-! ## Runs -/

/-- The steps all calls together have left. -/
def work (s : BlockSys) : Nat := (s.threads.map Point.left).sum

/-- A call that has returned looked for a block that was not there, or has the creator's size. -/
def Returned (size : UInt64) (s : BlockSys) : Prop :=
  ∀ p ∈ s.threads, p.result.isSome →
    p = .missed .errDoesNotExist ∨ ∃ block, p = .held block ∧ block.size = size

/-- The handshake, in a state and in the steps it allows. -/
structure Handshake (b : Build) (n : BlockName) (id size : UInt64) (s : BlockSys) : Prop where
  returned : s.Returned size
  /-- The others are on their way. -/
  running : ∀ p ∈ s.threads, p.result = none → 0 < p.left
  missed : ∀ i e s' p res, s.Answered size (.step i e) → s.Punctual (.step i e) →
    BlockSys.step b n id s (.step i e) = some s' → s.threads[i]? = some p →
    s'.threads[i]? = some (.missed res) → s.kernel.names (makeBlockNameBasedOnId n.chars id) = none
  /-- No field is used before it is written. -/
  uses : ∀ i e s' p f, s.Answered size (.step i e) → s.Punctual (.step i e) →
    BlockSys.step b n id s (.step i e) = some s' → s.threads[i]? = some p → p.uses = some f →
    ∀ c ∈ s.threads[0]?, f.written ≤ c.stage
  /-- Every step brings a call nearer to its return ... -/
  decreases : ∀ i e s', s.Answered size (.step i e) → s.Punctual (.step i e) →
    BlockSys.step b n id s (.step i e) = some s' → s'.work < s.work
  /-- ... and while a call has not returned there is a step to take. -/
  progress : (∃ p ∈ s.threads, p.result = none) → ∃ i, ∀ e : BlockEnv, e.Answers size →
    s.Answered size (.step i e) ∧ s.Punctual (.step i e) ∧
      ∃ s', BlockSys.step b n id s (.step i e) = some s'

/-- A thread is the creator or an opener. -/
theorem HandshakeOk.thread (h : HandshakeOk n id size c s) (hget : s.threads[i]? = some p) :
    CreatorAt n id size p s.kernel ∨
      OpenerAt (makeBlockNameBasedOnId n.chars id) size c.stage s.kernel p := by
  by_cases hi : i = 0
  · subst hi
    obtain rfl := Option.some.inj (h.head.symm.trans hget)
    exact .inl h.creator
  · exact .inr (h.openers i p hi hget)

theorem HandshakeOk.returned (h : HandshakeOk n id size c s) : s.Returned size := by
  intro p hp hsome
  obtain ⟨i, hget⟩ := List.mem_iff_getElem?.mp hp
  rcases h.thread hget with hc | ho
  · cases hc with
    | begins => cases hsome
    | builds hl =>
      rw [(CreatorAt.running_of_building hl).1] at hsome
      cases hsome
    | done hsize => exact .inr ⟨_, rfl, hsize⟩
  · cases p with
    | missed res => exact .inl (congrArg _ ho)
    | held block => exact .inr ⟨block, rfl, ho.2.1⟩
    | failed res => exact ho.elim
    | _ => cases hsome

theorem HandshakeOk.running (h : HandshakeOk n id size c s) (hget : s.threads[i]? = some p)
    (hrun : p.result = none) : 0 < p.left := by
  rcases h.thread hget with hc | ho
  · cases hc with
    | begins => exact Nat.succ_pos _
    | builds hl => exact (CreatorAt.running_of_building hl).2.2.2
    | done => cases hrun
  · cases p <;> first | exact Nat.succ_pos _ | exact ho.elim | cases hrun

theorem HandshakeOk.uses {f : Field} (h : HandshakeOk n id size c s)
    (hp : s.Punctual (.step i e)) (hget : s.threads[i]? = some p) (hf : p.uses = some f) :
    f.written ≤ c.stage := by
  have hlast : c.stage = 11 → f.written ≤ c.stage := by
    intro hstage
    rw [hstage]
    cases f <;> decide
  rcases h.thread hget with hc | ho
  · cases hc with
    | begins => cases hf
    | builds hl => cases (CreatorAt.running_of_building hl).2.1.symm.trans hf
    | done => cases hf
  · cases p with
    | readSize l =>
      obtain rfl := Option.some.inj hf
      exact hp _ hget rfl c h.head
    | checkId l => exact hlast ho.2.2
    | checkName l => exact hlast ho.2.2
    | retain l => exact hlast ho.2.2
    | takeId l => exact hlast ho.2.2
    | _ => cases hf

theorem HandshakeOk.enabled (hsize : Creatable b size) (h : HandshakeOk n id size c s)
    (hget : s.threads[i]? = some p) (hrun : p.result = none)
    (hpunctual : p.uses = some .blockSize → Field.blockSize.written ≤ c.stage)
    (hwait : i = 0 ∨ c.stage = 11) (e : BlockEnv) (he : e.Answers size) :
    s.Answered size (.step i e) ∧ s.Punctual (.step i e) ∧
      ∃ s', BlockSys.step b n id s (.step i e) = some s' := by
  refine ⟨⟨he, fun q hq => ?_⟩, fun q hq huses c' hc' => ?_, ?_⟩
  · obtain rfl := Option.some.inj (hget.symm.trans hq)
    exact hrun
  · obtain rfl := Option.some.inj (hget.symm.trans hq)
    obtain rfl := Option.some.inj (h.head.symm.trans hc')
    exact hpunctual huses
  · rcases h.advance hsize he hget hrun hpunctual with
      ⟨p', c', w, hadv, -⟩ | ⟨-, hlt, hne⟩
    · refine ⟨⟨w.kernel, s.threads.set i p'⟩, ?_⟩
      simp only [BlockSys.step, hget, Option.bind_some, hadv]
    · rcases hwait with rfl | hstage
      · exact absurd rfl hne
      · exact absurd hstage hlt.ne

theorem HandshakeOk.progress (hsize : Creatable b size) (h : HandshakeOk n id size c s)
    (hsome : ∃ p ∈ s.threads, p.result = none) :
    ∃ i, ∀ e : BlockEnv, e.Answers size → s.Answered size (.step i e) ∧ s.Punctual (.step i e) ∧
      ∃ s', BlockSys.step b n id s (.step i e) = some s' := by
  by_cases hlt : c.stage < 11
  · -- the creator can always go on
    have hrun : c.result = none ∧ c.uses = none := by
      cases h.creator with
      | begins => exact ⟨rfl, rfl⟩
      | builds hl =>
        obtain ⟨hresult, huses, -⟩ := CreatorAt.running_of_building hl
        exact ⟨hresult, huses⟩
      | done => exact absurd hlt (lt_irrefl 11)
    refine ⟨0, h.enabled hsize h.head hrun.1 (fun huses => ?_) (.inl rfl)⟩
    rw [hrun.2] at huses
    cases huses
  · -- and when it is done, so can everybody else
    have hstage : c.stage = 11 := by
      cases h.creator with
      | begins => exact absurd (Nat.succ_pos _) hlt
      | builds hl => exact absurd (CreatorAt.stage_of_building hl).2 hlt
      | done => rfl
    obtain ⟨p, hp, hrun⟩ := hsome
    obtain ⟨i, hget⟩ := List.mem_iff_getElem?.mp hp
    refine ⟨i, h.enabled hsize hget hrun (fun _ => ?_) (.inr hstage)⟩
    rw [hstage]
    decide

theorem HandshakeOk.handshake (hsize : Creatable b size) (h : HandshakeOk n id size c s) :
    Handshake b n id size s := by
  refine ⟨h.returned, fun p hp => ?_, ?_, ?_, ?_, h.progress hsize⟩
  · obtain ⟨i, hget⟩ := List.mem_iff_getElem?.mp hp
    exact h.running hget
  · intro i e s' p res ha hp hs hget hres
    obtain ⟨q, p', c', hq, hthreads, -, hmissed, -⟩ := h.step_thread hsize ha hp hs
    obtain ⟨hlt, -⟩ := List.getElem?_eq_some_iff.mp hget
    rw [hthreads, List.getElem?_set_self hlt] at hres
    exact hmissed res (Option.some.inj hres)
  · intro i e s' p f ha hp hs hget hf c' hc'
    obtain rfl := Option.some.inj (h.head.symm.trans hc')
    exact h.uses hp hget hf
  · intro i e s' ha hp hs
    obtain ⟨q, p', c', hq, hthreads, hleft, -⟩ := h.step_thread hsize ha hp hs
    have hsum := sum_map_set_add Point.left hq p'
    rw [work, work, hthreads]
    omega

/-- **The create/open handshake** in punctual runs. -/
theorem handshake_of_punctual {access : AccessMode} {k₀ : Kernel} (hsize : Creatable b size)
    (hfree : k₀.names (makeBlockNameBasedOnId n.chars id) = none)
    (hr : Reach (BlockSys.step b n id) (fun s a => s.Answered size a ∧ s.Punctual a)
      ⟨k₀, [.create size access]⟩ s) : Handshake b n id size s := by
  have hok : ∃ c, HandshakeOk n id size c s := by
    refine hr.invariant (I := fun s => ∃ c, HandshakeOk n id size c s)
      ⟨.create size access, rfl, .begins hfree, fun j p hj hp => ?_, fun obj hl => ?_, by simp⟩
      fun _ _ _ h ha hs => ?_
    · cases j with
      | zero => exact absurd rfl hj
      | succ j => cases hp
    · cases hfree.symm.trans hl
    · obtain ⟨c, hc⟩ := h
      exact hc.step hsize ha.1 ha.2 hs
  obtain ⟨c, hc⟩ := hok
  exact hc.handshake hsize

/-- A block `("a", 1)` about to be created. -/
def creating : BlockSys := { kernel := .empty, threads := [.create 4096 .readWrite] }

theorem creatable_page : Creatable ⟨false⟩ 4096 := ⟨.inr (by decide), by decide, by decide⟩

/-- One opener comes too early, one waits for the creator in the loop. -/
def waited : List BlockEvent :=
  [.open .readOnly, .step 1 .willing, .open .readWrite] ++ steps 0 6 ++ steps 2 4 ++ steps 0 5 ++
    steps 2 5

/-- The three calls have returned: created, not found, opened. -/
def allReturned (s : BlockSys) : Bool :=
  match s.threads with
  | [.held _, .missed _, .held _] => true
  | _ => false

theorem handshake_waited :
    Creatable ⟨false⟩ 4096 ∧
    ∃ s, Reach (BlockSys.step ⟨false⟩ .a 1) (fun s a => s.Answered 4096 a ∧ s.Punctual a) creating s ∧
      s.allReturned = true ∧ Handshake ⟨false⟩ .a 1 4096 s := by
  have htrace : ∃ s, Reach (BlockSys.step ⟨false⟩ .a 1) (fun s a => s.Answered 4096 a ∧ s.Punctual a)
      creating s ∧ s.allReturned = true :=
    exists_reach_of_trace (g := fun s a => decide (s.Answered 4096 a ∧ s.Punctual a))
      (t := allReturned) waited (fun _ _ h => of_decide_eq_true h) (fun _ h => h)
      (by decide +kernel)
  obtain ⟨s, hr, hreturned⟩ := htrace
  exact ⟨creatable_page, s, hr, hreturned, handshake_of_punctual creatable_page rfl hr⟩

/-! ## Where it goes wrong -/

/-- An opener reads `block_size` after the creator has set the length and before it has written the
size: it maps nothing. -/
def tooEarly : List BlockEvent := .open .readWrite :: (steps 0 2 ++ steps 1 4)

/-- An open has returned with something else than "does not exist". -/
def refused (s : BlockSys) : Bool :=
  match s.threads with
  | [_, .failed .errBadValue] => true
  | _ => false

theorem not_returned_of_refused (h : s.refused = true) : ¬ s.Returned 4096 := by
  intro hreturned
  unfold refused at h
  split at h
  · rename_i q hthreads
    rcases hreturned (.failed .errBadValue) (by simp [hthreads]) rfl with hmissed | ⟨block, hheld, -⟩
    · cases hmissed
    · cases hheld
  · cases h

theorem tooEarly_not_returned :
    Creatable ⟨false⟩ 4096 ∧
    ∃ s, Reach (BlockSys.step ⟨false⟩ .a 1) (fun s a => s.Answered 4096 a) creating s ∧ ¬ s.Returned 4096 :=
  ⟨creatable_page, exists_reach_of_trace (g := fun s a => decide (s.Answered 4096 a)) (t := refused)
    tooEarly (fun _ _ h => of_decide_eq_true h) (fun _ h => not_returned_of_refused h)
    (by decide +kernel)⟩

end BlockSys

end Ipm
