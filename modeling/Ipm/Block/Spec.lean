import Ipm.Block.Shared

/-!
# What the calls of `shared_memory.c` do to the kernel

One postcondition per function, over every answer of the environment that maps the header page and
removes names (`Os.Sound`). Creation adds one finished object or leaves everything as it was;
opening adds a reference to a finished object or leaves everything as it was; closing drops a
reference and, with the last one, retires and unlinks the object.
-/

set_option autoImplicit false

namespace Ipm

open Lib

/-- Names, and the objects that were there, are as before; new objects may be left over. -/
structure Kernel.Same (k k' : Kernel) : Prop where
  names : k'.names = k.names
  objs : ∀ i < k.fresh, k'.objs i = k.objs i
  fresh : k.fresh ≤ k'.fresh

/-- As `Same`, but what is behind the headers may have changed. -/
structure Kernel.Steady (k k' : Kernel) : Prop where
  names : k'.names = k.names
  header : ∀ i < k.fresh, k'.header i = k.header i
  length : ∀ i < k.fresh, (k'.objs i).length = (k.objs i).length
  fresh : k.fresh ≤ k'.fresh

/-- As `Same`, but what the claim lists contain may have changed. -/
structure Kernel.Calm (k k' : Kernel) : Prop extends Kernel.Steady k k' where
  listSync : ∀ i < k.fresh, (k'.objs i).listSync = (k.objs i).listSync

/-- `k` with one more object, `o`, linked under `path`. -/
def Kernel.build (k : Kernel) (path : CString) (o : ShmObject) : Kernel :=
  { names := Function.update k.names path (some k.fresh)
    objs := Function.update k.objs k.fresh o
    fresh := k.fresh + 1 }

namespace Kernel

variable {k : Kernel} {path : CString} {o : ShmObject}

theorem Same.refl (k : Kernel) : k.Same k := ⟨rfl, fun _ _ => rfl, le_rfl⟩

theorem Same.calm {k k' : Kernel} (h : k.Same k') : k.Calm k' where
  names := h.names
  header := fun i hi => by rw [header, header, h.objs i hi]
  length := fun i hi => by rw [h.objs i hi]
  listSync := fun i hi => by rw [h.objs i hi]
  fresh := h.fresh

/-- A change behind the header of one object. -/
theorem steady_modifyObj (k : Kernel) (obj : Nat) {f : ShmObject → ShmObject}
    (hhd : ∀ o, (f o).header = o.header) (hlen : ∀ o, (f o).length = o.length) :
    k.Steady (k.modifyObj obj f) := by
  refine ⟨rfl, fun i _ => ?_, fun i _ => ?_, le_rfl⟩
  · by_cases hi : i = obj
    · subst hi; simp [header, hhd]
    · simp [header, hi]
  · by_cases hi : i = obj
    · subst hi; simp [hlen]
    · simp [hi]

theorem calm_relist (k : Kernel) (obj : Nat) (list : ClaimList) :
    k.Calm (k.modifyObj obj fun o => { o with list := list }) := by
  refine ⟨k.steady_modifyObj obj (fun _ => rfl) fun _ => rfl, fun i _ => ?_⟩
  by_cases hi : i = obj
  · subst hi; simp
  · simp [hi]

theorem link_eq_build (k : Kernel) (path : CString) : k.link path = k.build path .empty := rfl

@[simp] theorem objs_build_fresh (k : Kernel) (path : CString) (o : ShmObject) :
    (k.build path o).objs k.fresh = o := by simp [build]

@[simp] theorem names_build_self (k : Kernel) (path : CString) (o : ShmObject) :
    (k.build path o).names path = some k.fresh := by simp [build]

theorem names_build (k : Kernel) (path p : CString) (o : ShmObject) :
    (k.build path o).names p = if p = path then some k.fresh else k.names p :=
  Function.update_apply _ _ _ _

theorem objs_build_ne (k : Kernel) (path : CString) (o : ShmObject) {i : Nat} (h : i ≠ k.fresh) :
    (k.build path o).objs i = k.objs i :=
  Function.update_of_ne h _ _

@[simp] theorem modifyObj_build (k : Kernel) (path : CString) (o : ShmObject)
    (f : ShmObject → ShmObject) : (k.build path o).modifyObj k.fresh f = k.build path (f o) := by
  simp [build, modifyObj]

/-- Unlinking what was built leaves nothing but an unreachable object. -/
theorem same_unlink_build (h : k.names path = none) (o : ShmObject) :
    k.Same ((k.build path o).unlink path) := by
  refine ⟨?_, fun i hi => ?_, Nat.le_succ _⟩
  · funext p
    by_cases hp : p = path
    · subst hp; simp [h]
    · simp [unlink, build, hp]
  · simp [build, unlink, hi.ne]

end Kernel

variable {b : Build} {ctx : Context} {os : Os} {path : CString} {k : Kernel} {w : World}
variable {size : UInt64} {file : File} {o : ShmObject}

/-- The answers this development's callers may count on: the header page can be mapped, and a name
can be removed. -/
structure Os.Sound (os : Os) : Prop where
  headerMmap : Maps os.headerMmap memoryPageSize
  unlink : os.unlink = none

theorem isOk_iff {ε α : Type} (r : Except ε α) : r.isOk = true ↔ ∃ a, r = .ok a := by
  cases r with
  | ok a => exact ⟨fun _ => ⟨a, rfl⟩, fun _ => rfl⟩
  | error e => exact ⟨nofun, by rintro ⟨a, ⟨⟩⟩⟩

instance (os : Os) : Decidable os.Sound :=
  decidable_of_iff (Maps os.headerMmap memoryPageSize ∧ os.unlink = none)
    ⟨fun h => ⟨h.1, h.2⟩, fun h => ⟨h.headerMmap, h.unlink⟩⟩

/-! ## The calls that leave the kernel alone -/

section Calls

variable {E : IpmResult → World → Prop} {S : Stop → World → Prop}

theorem errno_post : Prog.Post errno w (fun _ w' => w'.kernel = w.kernel) E S :=
  Prog.post_iff.mpr rfl

theorem ipmError_post : Prog.Post (ipmError ctx) w (fun _ w' => w'.kernel = w.kernel) E S :=
  Prog.post_iff.mpr rfl

theorem closeFd_post : Prog.Post (closeFd os file) w (fun _ w' => w'.kernel = w.kernel) E S :=
  Prog.post_iff.mpr rfl

theorem munmap_post {addr : Nat} {length : UInt64} :
    Prog.Post (munmap os addr length) w (fun _ w' => w'.kernel = w.kernel) E S := by
  apply Prog.Post.update
  split
  · rfl
  · rfl

theorem munmap_of_inSpace {addr : Nat} {length : UInt64} (h : InSpace addr length) :
    munmap os addr length w = .ret (.ok ())
      { w with proc := { w.proc.setPages addr length (fun _ => none) with
                         errno := os.residue w.proc.errno } } := by
  rw [munmap, Prog.update, if_pos h]

/-- How an `mmap` can end. -/
inductive MmapEnd (res : Except Failure Nat) (file : File) (length : UInt64) (access : AccessMode)
    (offset : UInt64) (w : World) : Option Nat → World → Prop
  | mapped {addr : Nat} (hmaps : Maps res length) (hres : res = .ok addr) :
      MmapEnd res file length access offset w (some addr)
        { w with proc := w.proc.setPages addr length (file.pages access offset) }
  | refused {e : Errno} (hnot : ¬ Maps res length) :
      MmapEnd res file length access offset w none (w.setErrno e)

/-- **What `mmap` does**: it maps where the answer says, or nothing. -/
theorem mmap_cases_post {res : Except Failure Nat} {length offset : UInt64} {access : AccessMode} :
    Prog.Post (mmap res file length access offset) w (MmapEnd res file length access offset w) E S := by
  rw [Prog.post_iff]
  unfold mmap
  by_cases hzero : length = 0
  · rw [if_pos hzero]
    exact .refused fun hmaps => hmaps.1 hzero
  · rw [if_neg hzero]
    cases res with
    | error f =>
      refine .refused ?_
      rintro ⟨-, addr, heq, -⟩
      cases heq
    | ok addr =>
      by_cases hin : InSpace addr length
      · simp only [if_pos hin]
        exact .mapped ⟨hzero, addr, rfl, hin⟩ rfl
      · simp only [if_neg hin]
        refine .refused ?_
        rintro ⟨-, addr', heq, hin'⟩
        cases heq
        exact hin hin'

theorem Maps.inSpace {res : Except Failure Nat} {length : UInt64} {addr : Nat} (h : Maps res length)
    (hres : res = .ok addr) : InSpace addr length := by
  obtain ⟨-, addr', heq, hin⟩ := h
  rw [hres] at heq
  cases heq
  exact hin

theorem length_lt_of_inSpace {addr : Nat} {length : UInt64} (h : InSpace addr length) :
    length.toNat < lengthLimit := by
  have hend : addressEnd < lengthLimit := by decide
  exact (Nat.le_add_left _ _).trans_lt (Nat.lt_of_le_of_lt h hend)

/-- A mapping that succeeded is neither empty nor too long. -/
theorem mmap_post {res : Except Failure Nat} {length offset : UInt64} {access : AccessMode} :
    Prog.Post (mmap res file length access offset) w
      (fun r w' => w'.kernel = w.kernel ∧ (r.isSome → length ≠ 0 ∧ length.toNat < lengthLimit)) E S := by
  refine mmap_cases_post.mapRet fun r w' h => ?_
  cases h with
  | mapped hmaps hres =>
    obtain ⟨hne, _, -, hin⟩ := hmaps
    exact ⟨rfl, fun _ => ⟨hne, length_lt_of_inSpace hin⟩⟩
  | refused hnot => exact ⟨rfl, nofun⟩

/-- A truncation that fails changes nothing. -/
theorem ftruncate_post {length : UInt64} :
    Prog.Post (ftruncate os file length) w
      (fun done w' => if done then length.toNat < lengthLimit ∧ os.ftruncate = none ∧
          w'.kernel = w.kernel.modifyObj file.obj (·.resize length.toNat)
        else w'.kernel = w.kernel) E S := by
  rw [Prog.post_iff, ftruncate]
  by_cases hbig : lengthLimit ≤ length.toNat
  · simp [hbig]
  · cases hos : os.ftruncate <;> simp [hbig, Nat.lt_of_not_le hbig]

/-- The header page: a failed mapping ends the process. -/
theorem mapHeader_any_post
    (hS : ¬ Maps os.headerMmap memoryPageSize → ∀ w', S .fault w') :
    Prog.Post (mapHeader os file) w (fun _ w' => w'.kernel = w.kernel) E S := by
  refine mmap_cases_post.bind fun r w1 h1 => ?_
  cases h1 with
  | mapped hmaps hres => exact Prog.Post.pure rfl
  | refused hnot => exact Prog.Post.halt (hS hnot _)

theorem mapHeader_post (hos : os.Sound) :
    Prog.Post (mapHeader os file) w (fun _ w' => w'.kernel = w.kernel) E S :=
  mapHeader_any_post fun hnone => absurd hos.headerMmap hnone

/-! ## The header -/

/-- Reading a header, whether or not its page is there. -/
theorem getHeader_any_post {obj : Nat} :
    Prog.Post (getHeader obj) w (fun hd w' => w' = w ∧ hd = w.kernel.header obj) E
      (fun _ w' => w' = w) := by
  rw [Prog.post_iff, getHeader]
  by_cases h : (w.kernel.objs obj).length < memoryPageSize.toNat <;> simp [h]

/-- Writing a header, whether or not its page is there. -/
theorem setHeader_any_post {obj : Nat} {f : Header → Header} :
    Prog.Post (setHeader obj f) w
      (fun _ w' => w'.kernel = w.kernel.modifyObj obj fun o => { o with header := f o.header }) E
      (fun _ w' => w' = w) := by
  rw [Prog.post_iff, setHeader]
  by_cases h : (w.kernel.objs obj).length < memoryPageSize.toNat <;> simp [h]

/-- An atomic update that returns a field: the page is there for both halves, or for none. -/
theorem fetch_any_post {α : Type} {obj : Nat} {f : Header → Header} {g : Header → α} :
    Prog.Post (do let h ← getHeader obj; setHeader obj f; return g h : Call α) w
      (fun a w' => a = g (w.kernel.header obj) ∧
        w'.kernel = w.kernel.modifyObj obj fun o => { o with header := f o.header }) E
      (fun _ w' => w' = w) := by
  rw [Prog.post_iff]
  by_cases h : (w.kernel.objs obj).length < memoryPageSize.toNat <;>
    simp [Prog.bind_apply, getHeader, setHeader, h, -bind_pure_comp]

theorem getHeader_post {obj : Nat} (h : memoryPageSize.toNat ≤ (w.kernel.objs obj).length) :
    Prog.Post (getHeader obj) w (fun hd w' => w' = w ∧ hd = w.kernel.header obj) E S := by
  simp [getHeader, Prog.post_iff, Nat.not_lt.mpr h]

theorem setHeader_post {obj : Nat} {f : Header → Header}
    (h : memoryPageSize.toNat ≤ (w.kernel.objs obj).length) :
    Prog.Post (setHeader obj f) w
      (fun _ w' => w'.kernel = w.kernel.modifyObj obj fun o => { o with header := f o.header })
      E S := by
  simp [setHeader, Prog.post_iff, Nat.not_lt.mpr h]

end Calls

/-! ## The pieces that leave the kernel alone -/

section Keeps

variable {header memory : Nat} {block : SharedMemoryBlock}

theorem errno_keeps : Prog.Keeps World.kernel errno := fun _ => errno_post

theorem ipmError_keeps : Prog.Keeps World.kernel (ipmError ctx) := fun _ => ipmError_post

theorem closeFd_keeps : Prog.Keeps World.kernel (closeFd os file) := fun _ => closeFd_post

theorem munmap_keeps {addr : Nat} {length : UInt64} :
    Prog.Keeps World.kernel (munmap os addr length) := fun _ => munmap_post

theorem mmap_keeps {res : Except Failure Nat} {length offset : UInt64} {access : AccessMode} :
    Prog.Keeps World.kernel (mmap res file length access offset) :=
  fun _ => mmap_post.mapRet fun _ _ h => h.1

theorem getHeader_keeps {obj : Nat} : Prog.Keeps World.kernel (getHeader obj) :=
  fun _ => getHeader_any_post.mono (fun _ _ h => h.1 ▸ rfl) (fun _ _ h => h) fun _ _ h => h ▸ rfl

theorem mapHeader_keeps : Prog.Keeps World.kernel (mapHeader os file) := by
  refine mmap_keeps.bind fun r => ?_
  cases r with
  | some addr => exact .pure _
  | none => exact .halt _

theorem readSize_keeps {obj : Nat} : Prog.Keeps World.kernel (readSize obj) :=
  getHeader_keeps.bind fun _ => .pure _

theorem openMapBody_keeps {access : AccessMode} :
    Prog.Keeps World.kernel (openMapBody ctx os file header size access) := by
  refine mmap_keeps.bind fun r => ?_
  cases r with
  | some addr => exact .pure _
  | none =>
    refine closeFd_keeps.bind fun _ => munmap_keeps.bind fun _ => ?_
    exact ipmError_keeps.bind fun _ => errno_keeps.bind fun _ => .fail _

theorem openMismatch_keeps :
    Prog.Keeps World.kernel (openMismatch ctx os file size header memory) := by
  refine closeFd_keeps.bind fun _ => ipmError_keeps.bind fun _ => ?_
  exact munmap_keeps.bind fun _ => munmap_keeps.bind fun _ => .fail _

theorem checkBlockId_keeps {id : UInt64} :
    Prog.Keeps World.kernel (checkBlockId ctx os file size header memory id) := by
  refine getHeader_keeps.bind fun h => ?_
  split
  · exact openMismatch_keeps
  · exact .pure _

theorem checkBlockName_keeps {blockName : CString} :
    Prog.Keeps World.kernel (checkBlockName ctx os file size header memory blockName) := by
  refine getHeader_keeps.bind fun h => ?_
  split
  · exact .pure _
  · exact openMismatch_keeps

theorem unmapBlock_keeps : Prog.Keeps World.kernel (unmapBlock os block) :=
  getHeader_keeps.bind fun _ => munmap_keeps.bind fun _ => munmap_keeps

theorem sharedMemoryBlockClean_keeps :
    Prog.Keeps World.kernel (sharedMemoryBlockClean b os block) :=
  (Prog.Keeps.assert _ _).bind fun _ => closeFd_keeps.bind fun _ => unmapBlock_keeps

end Keeps

/-! ## `shared_memory_block_create` -/

/-- How a failing `shared_memory_block_create` leaves the kernel. When the namespace was asked, a
name that is taken is reported as such, and only then. -/
structure CreateFailed (asked : Prop) (k : Kernel) (path : CString) (e : IpmResult) (k' : Kernel) :
    Prop where
  same : k.Same k'
  ne_success : e ≠ .success
  taken : e = .errExists → (k.names path).isSome
  exists_of_asked : asked → (k.names path).isSome → e = .errExists

theorem lookupError_ne (noEntry : IpmResult) (h₁ : noEntry ≠ .success) (h₂ : noEntry ≠ .errExists)
    (e : Errno) : lookupError noEntry e ≠ .success ∧ lookupError noEntry e ≠ .errExists := by
  cases e <;> first | exact ⟨h₁, h₂⟩ | exact ⟨nofun, nofun⟩

/-- One `errno` alone says that there is nothing. -/
theorem lookupError_doesNotExist_iff (e : Errno) :
    lookupError .errDoesNotExist e = .errDoesNotExist ↔ e = .ENOENT := by
  cases e <;> simp [lookupError]

theorem createTruncateError_ne (e : Errno) :
    createTruncateError e ≠ .success ∧ createTruncateError e ≠ .errExists := by
  cases e <;> exact ⟨nofun, nofun⟩

theorem mapError_ne (e : Errno) : mapError e ≠ .success ∧ mapError e ≠ .errExists := by
  cases e <;> exact ⟨nofun, nofun⟩

theorem CreateFailed.rollback {asked : Prop} {e : IpmResult} (hname : k.names path = none)
    (h : e ≠ .success ∧ e ≠ .errExists) (hw : w.kernel = (k.build path o).unlink path) :
    CreateFailed asked k path e w.kernel where
  same := hw ▸ Kernel.same_unlink_build hname o
  ne_success := h.1
  taken := fun he => absurd he h.2
  exists_of_asked := fun _ hsome => by rw [hname] at hsome; cases hsome

/-- A failing `shared_memory_block_create`, whether or not it could remove the name again. -/
def CreateAborted (os : Os) (asked : Prop) (k : Kernel) (path : CString) (e : IpmResult)
    (k' : Kernel) : Prop :=
  e ≠ .success ∧ (os.Sound → CreateFailed asked k path e k')

theorem CreateAborted.rollback {asked : Prop} {e : IpmResult} (hname : k.names path = none)
    (h : e ≠ .success ∧ e ≠ .errExists)
    (hw : os.Sound → w.kernel = (k.build path o).unlink path) :
    CreateAborted os asked k path e w.kernel :=
  ⟨h.1, fun hos => .rollback hname h (hw hos)⟩

theorem createOpen_post (S : Stop → World → Prop) :
    Prog.Post (createOpen ctx os path) w
      (fun file w' => w.kernel.names path = none ∧ file.obj = w.kernel.fresh ∧
        w'.kernel = w.kernel.build path .empty)
      (fun e w' => CreateFailed (∃ fd, os.shmOpen = .ok fd) w.kernel path e w'.kernel) S := by
  unfold createOpen
  cases hopen : os.shmOpen with
  | error f =>
    have hcode := lookupError_ne .errOsUnexpected nofun nofun (ctx.report f.errno)
    have hfailed : CreateFailed (∃ fd, (.error f : Except Failure Nat) = .ok fd) w.kernel path
        (lookupError .errOsUnexpected (ctx.report f.errno)) w.kernel :=
      ⟨.refl _, hcode.1, fun he => absurd he hcode.2, by rintro ⟨fd, ⟨⟩⟩⟩
    simpa [Prog.post_iff, Prog.bind_apply, shmOpenExcl, hopen, errno, f.ne_EEXIST, World.setErrno,
      ipmError] using hfailed
  | ok fd =>
    cases hname : w.kernel.names path with
    | some obj =>
      have hfailed : CreateFailed (∃ fd', (.ok fd : Except Failure Nat) = .ok fd') w.kernel path
          .errExists w.kernel :=
        ⟨.refl _, nofun, fun _ => by rw [hname]; rfl, fun _ _ => rfl⟩
      simpa [Prog.post_iff, Prog.bind_apply, shmOpenExcl, hopen, hname, errno, World.setErrno]
        using hfailed
    | none =>
      simp [Prog.post_iff, Prog.bind_apply, shmOpenExcl, hopen, hname, Kernel.link_eq_build]

/-- Unlinking what is under construction. -/
theorem shmUnlink_post {E : IpmResult → World → Prop} {S : Stop → World → Prop}
    (hw : w.kernel = k.build path o) :
    Prog.Post (shmUnlink os path) w
      (fun _ w' => os.Sound → w'.kernel = (k.build path o).unlink path) E S := by
  rw [Prog.post_iff, shmUnlink]
  cases hos : os.unlink with
  | none => simp [hw]
  | some e => exact fun hsound => absurd (hos.symm.trans hsound.unlink) nofun

theorem createTruncate_post {asked : Prop} (S : Stop → World → Prop)
    (hname : k.names path = none) (hobj : file.obj = k.fresh) (hw : w.kernel = k.build path o) :
    Prog.Post (createTruncate ctx os path file size) w
      (fun _ w' => (size + memoryPageSize).toNat < lengthLimit ∧
        w'.kernel = k.build path (o.resize (size + memoryPageSize).toNat))
      (fun e w' => CreateAborted os asked k path e w'.kernel) S := by
  unfold createTruncate
  generalize size + memoryPageSize = length
  refine ftruncate_post.bind fun done w1 h1 => ?_
  cases done with
  | true =>
    obtain ⟨hlt, -, hkernel⟩ := h1
    refine Prog.Post.pure ⟨hlt, ?_⟩
    rw [hkernel, hw, hobj, Kernel.modifyObj_build]
  | false =>
    refine ipmError_post.bind fun _ w2 h2 => closeFd_post.bind fun _ w3 h3 => ?_
    refine (shmUnlink_post (h3.trans (h2.trans (Eq.trans h1 hw)))).bind fun _ w4 h4 => ?_
    refine errno_post.bind fun e w5 h5 => ?_
    exact Prog.Post.fail (.rollback hname (createTruncateError_ne e) fun hos => h5.trans (h4 hos))

theorem createMapBody_post {asked : Prop} {access : AccessMode} (S : Stop → World → Prop)
    (hname : k.names path = none) (hw : w.kernel = k.build path o) :
    Prog.Post (createMapBody ctx os path file size access) w
      (fun _ w' => size ≠ 0 ∧ size.toNat < lengthLimit ∧ w'.kernel = k.build path o)
      (fun e w' => CreateAborted os asked k path e w'.kernel) S := by
  refine mmap_post.bind fun r w1 h1 => ?_
  cases r with
  | some addr => exact Prog.Post.pure ⟨(h1.2 rfl).1, (h1.2 rfl).2, h1.1.trans hw⟩
  | none =>
    refine closeFd_post.bind fun _ w2 h2 => ipmError_post.bind fun _ w3 h3 => ?_
    refine (shmUnlink_post (h3.trans (h2.trans (h1.1.trans hw)))).bind fun _ w4 h4 => ?_
    refine errno_post.bind fun e w5 h5 => ?_
    exact Prog.Post.fail (.rollback hname (mapError_ne e) fun hos => h5.trans (h4 hos))

theorem createMutex_post {asked : Prop} (S : Stop → World → Prop) {header memory : Nat}
    (hname : k.names path = none) (hobj : file.obj = k.fresh) (hw : w.kernel = k.build path o)
    (hlen : memoryPageSize.toNat ≤ o.length) :
    Prog.Post (createMutex ctx os path file size header memory) w
      (fun _ w' => w'.kernel =
        k.build path { o with header := { o.header with segmentMutex := .ready } })
      (fun e w' => CreateAborted os asked k path e w'.kernel) S := by
  refine errno_post.bind fun e w1 h1 => ?_
  have hw1 := h1.trans hw
  dsimp only
  split
  · rename_i hres
    refine closeFd_post.bind fun _ w2 h2 => ipmError_post.bind fun _ w3 h3 => ?_
    refine munmap_post.bind fun _ w4 h4 => munmap_post.bind fun _ w5 h5 => ?_
    refine (shmUnlink_post
      (h5.trans (h4.trans (h3.trans (h2.trans hw1))))).bind fun _ w6 h6 => ?_
    exact Prog.Post.fail (.rollback hname ⟨hres, ipmMutexInit_ne_errExists _ e⟩ h6)
  · refine (setHeader_post (by simpa [hw1, hobj] using hlen)).mapRet fun _ w2 h2 => ?_
    rw [h2, hw1, hobj, Kernel.modifyObj_build]

/-- What `shared_memory_block_create` leaves in a new object. -/
def createdObject (blockName : BlockName) (id size : UInt64) : ShmObject :=
  { ShmObject.empty with
    length := size.toNat + memoryPageSize.toNat
    header := { segmentMutex := .ready, refcount := 1, blockSize := size, idCounter := 1 + 1,
                blockId := id, blockName := blockName.chars } }

/-- A successful `shared_memory_block_create`: the handle, and the one object it adds. -/
structure Created (k : Kernel) (blockName : BlockName) (id size : UInt64) (access : AccessMode)
    (block : SharedMemoryBlock) (k' : Kernel) : Prop where
  free : k.names (makeBlockNameBasedOnId blockName.chars id) = none
  obj : block.obj = k.fresh
  accessId : block.accessId = 1
  size_eq : block.size = size
  accessMode : block.accessMode = access
  hasOwnership : block.hasOwnership = false
  size_ne_zero : size ≠ 0
  size_lt : size.toNat + memoryPageSize.toNat < lengthLimit
  kernel : k' = k.build (makeBlockNameBasedOnId blockName.chars id)
    (createdObject blockName id size)

theorem resize_empty (length : Nat) :
    ShmObject.empty.resize length = { ShmObject.empty with length := length } := by
  unfold ShmObject.resize
  split <;> rfl

/-- No mapping is so long that adding the header page wraps. -/
theorem toNat_add_page {size : UInt64} (h : size.toNat < lengthLimit) :
    (size + memoryPageSize).toNat = size.toNat + memoryPageSize.toNat := by
  have hpage : memoryPageSize.toNat = 4096 := by decide
  have hlimit : lengthLimit = 2 ^ 63 := rfl
  rw [UInt64.toNat_add, Nat.mod_eq_of_lt]
  omega

/-- One more header field of the object under construction. -/
theorem setHeader_build_post {E : IpmResult → World → Prop} {S : Stop → World → Prop}
    {f : Header → Header} (hobj : file.obj = k.fresh) (hw : w.kernel = k.build path o)
    (hlen : memoryPageSize.toNat ≤ o.length) :
    Prog.Post (setHeader file.obj f) w
      (fun _ w' => w'.kernel = k.build path { o with header := f o.header }) E S := by
  refine (setHeader_post (by simpa [hw, hobj] using hlen)).mapRet fun _ w2 h2 => ?_
  rw [h2, hw, hobj, Kernel.modifyObj_build]

theorem takeAccessId_post {E : IpmResult → World → Prop} {S : Stop → World → Prop} {obj : Nat}
    (h : memoryPageSize.toNat ≤ (w.kernel.objs obj).length) :
    Prog.Post (takeAccessId obj) w
      (fun id w' => id = (w.kernel.header obj).idCounter ∧
        w'.kernel = w.kernel.modifyObj obj fun o =>
          { o with header := { o.header with idCounter := o.header.idCounter + 1 } }) E S := by
  refine (getHeader_post h).bind fun hd w1 h1 => ?_
  obtain ⟨rfl, rfl⟩ := h1
  exact (setHeader_post h).bind fun _ w2 h2 => Prog.Post.pure ⟨rfl, h2⟩

/-- A size the assertions of `shared_memory_block_create` let through. -/
def SizeOk (b : Build) (size : UInt64) : Prop :=
  b.ndebug = true ∨ (size &&& memoryPageSizeMask) = 0 ∧ size > 0

theorem not_sizeOk_of_mask (hb : b.ndebug = false)
    (hc : (size &&& memoryPageSizeMask == 0) = false) : ¬ SizeOk b size := by
  rintro (hok | ⟨hok, -⟩)
  · exact absurd (hb.symm.trans hok) nofun
  · simp [hok] at hc

theorem not_sizeOk_of_pos (hb : b.ndebug = false) (hc : decide (size > 0) = false) :
    ¬ SizeOk b size := by
  rintro (hok | ⟨-, hok⟩)
  · exact absurd (hb.symm.trans hok) nofun
  · exact absurd hok (of_decide_eq_false hc)

/-- **What `shared_memory_block_create` does to the kernel**, however the environment answers. -/
theorem sharedMemoryBlockCreate_any_post {blockName : BlockName} {id : UInt64}
    {access : AccessMode} :
    Prog.Post (sharedMemoryBlockCreate b ctx os blockName id size access) w
      (fun block w' => Created w.kernel blockName id size access block w'.kernel)
      (fun e w' =>
        CreateAborted os (∃ fd, os.shmOpen = .ok fd) w.kernel
          (makeBlockNameBasedOnId blockName.chars id) e w'.kernel)
      (fun why w' => os.Sound → why = .assertion ∧ w' = w ∧ ¬ SizeOk b size) := by
  unfold sharedMemoryBlockCreate
  refine (Prog.Post.assert (Q := fun _ w' => w' = w) (fun _ => rfl) fun hb hc _ =>
    ⟨rfl, rfl, not_sizeOk_of_mask hb hc⟩).bind ?_
  intro _ w₀ hw₀
  subst w₀
  refine (Prog.Post.assert (Q := fun _ w' => w' = w) (fun _ => rfl) fun hb hc _ =>
    ⟨rfl, rfl, not_sizeOk_of_pos hb hc⟩).bind ?_
  intro _ w₀ hw₀
  subst w₀
  dsimp only
  generalize hpath : makeBlockNameBasedOnId blockName.chars id = path
  refine ((createOpen_post _).mono (fun _ _ h => h) (fun _ _ h => ⟨h.ne_success, fun _ => h⟩)
    fun _ _ h => h).bind fun file w1 h1 => ?_
  obtain ⟨hfree, hobj, h1⟩ := h1
  refine (createTruncate_post _ hfree hobj h1).bind fun _ w2 h2 => ?_
  obtain ⟨hlt, h2⟩ := h2
  rw [resize_empty] at h2
  refine (createMapBody_post _ hfree h2).bind fun memory w3 h3 => ?_
  obtain ⟨hne, hmap, h3⟩ := h3
  rw [toNat_add_page hmap] at h3 hlt
  have hlen : memoryPageSize.toNat ≤ size.toNat + memoryPageSize.toNat := Nat.le_add_left _ _
  refine (mapHeader_any_post fun hnone _ hos => absurd hos.headerMmap hnone).bind
    fun header w4 h4 => ?_
  refine (setHeader_build_post hobj (h4.trans h3) hlen).bind fun _ w5 h5 => ?_
  refine (setHeader_build_post hobj h5 hlen).bind fun _ w6 h6 => ?_
  refine (setHeader_build_post hobj h6 hlen).bind fun _ w7 h7 => ?_
  refine (createMutex_post _ hfree hobj h7 hlen).bind fun _ w8 h8 => ?_
  refine (setHeader_build_post hobj h8 hlen).bind fun _ w9 h9 => ?_
  refine (takeAccessId_post (by simp [h9, hobj])).bind fun accessId w10 h10 => ?_
  obtain ⟨hid, h10⟩ := h10
  rw [h9, hobj, Kernel.modifyObj_build] at h10
  refine (setHeader_build_post hobj h10 hlen).bind fun _ w11 h11 => Prog.Post.pure ?_
  refine ⟨hpath ▸ hfree, hobj, ?_, rfl, rfl, rfl, hne, hlt, hpath ▸ h11⟩
  rw [hid, h9, Kernel.header, hobj, Kernel.objs_build_fresh]

/-- With the header page mapped and names removed, a failing creation leaves no trace. -/
theorem sharedMemoryBlockCreate_post {blockName : BlockName} {id : UInt64} {access : AccessMode}
    (hos : os.Sound) :
    Prog.Post (sharedMemoryBlockCreate b ctx os blockName id size access) w
      (fun block w' => Created w.kernel blockName id size access block w'.kernel)
      (fun e w' =>
        CreateFailed (∃ fd, os.shmOpen = .ok fd) w.kernel
          (makeBlockNameBasedOnId blockName.chars id) e w'.kernel)
      (fun why w' => why = .assertion ∧ w' = w ∧ ¬ SizeOk b size) :=
  sharedMemoryBlockCreate_any_post.mono (fun _ _ h => h) (fun _ _ h => h.2 hos)
    fun _ _ h => h hos

/-! ## `shared_memory_block_open` -/

/-- How a failing `shared_memory_block_open` leaves the kernel. A name that is not linked is reported
as such exactly when the report callback keeps the `ENOENT` it is recognised by. -/
def OpenFailed (ctx : Context) (os : Os) (k : Kernel) (path : CString) (e : IpmResult)
    (k' : Kernel) : Prop :=
  k' = k ∧ e ≠ .success ∧
    (k.names path = none → (∃ fd, os.shmOpen = .ok fd) →
      (e = .errDoesNotExist ↔ ctx.report .ENOENT = .ENOENT))

theorem OpenFailed.of_linked {e : IpmResult} {obj : Nat} (hlinked : k.names path = some obj)
    (hw : w.kernel = k) (he : e ≠ .success) : OpenFailed ctx os k path e w.kernel :=
  ⟨hw, he, fun hnone => absurd (hlinked.symm.trans hnone) nofun⟩

theorem openLookup_post (S : Stop → World → Prop) :
    Prog.Post (openLookup ctx os path) w
      (fun file w' => w.kernel.names path = some file.obj ∧ w'.kernel = w.kernel)
      (fun e w' => OpenFailed ctx os w.kernel path e w'.kernel) S := by
  rw [Prog.post_iff]
  unfold openLookup
  cases hopen : os.shmOpen with
  | error f =>
    have hcode := lookupError_ne .errDoesNotExist nofun nofun (ctx.report f.errno)
    simp [Prog.bind_apply, shmOpen, hopen, errno, f.ne_EEXIST, World.setErrno, ipmError, OpenFailed,
      hcode]
  | ok fd =>
    cases hname : w.kernel.names path with
    | some obj => simp [Prog.bind_apply, shmOpen, hopen, hname]
    | none =>
      have hcode := lookupError_ne .errDoesNotExist nofun nofun (ctx.report .ENOENT)
      simp only [Prog.bind_apply, shmOpen, hopen, hname, errno, World.setErrno, ipmError,
        Prog.read_apply, Prog.update_apply, Prog.fail_apply, reduceCtorEq, if_false]
      exact ⟨rfl, hcode.1, fun _ _ => lookupError_doesNotExist_iff _⟩

theorem openMapBody_post (S : Stop → World → Prop) {header obj : Nat} {access : AccessMode}
    (hlinked : k.names path = some obj) (hw : w.kernel = k) :
    Prog.Post (openMapBody ctx os file header size access) w (fun _ w' => w'.kernel = k)
      (fun e w' => OpenFailed ctx os k path e w'.kernel) S := by
  refine mmap_post.bind fun r w1 h1 => ?_
  cases r with
  | some addr => exact Prog.Post.pure (h1.1.trans hw)
  | none =>
    refine closeFd_post.bind fun _ w2 h2 => munmap_post.bind fun _ w3 h3 => ?_
    refine ipmError_post.bind fun _ w4 h4 => errno_post.bind fun e w5 h5 => ?_
    refine Prog.Post.fail (.of_linked hlinked ?_ (mapError_ne e).1)
    rw [h5, h4, h3, h2, h1.1, hw]

/-- A finished object of `(blockName, id)` that somebody holds. -/
structure ShmObject.Serves (o : ShmObject) (blockName : BlockName) (id : UInt64) : Prop where
  length : memoryPageSize.toNat ≤ o.length
  refcount : o.header.refcount ≠ 0
  blockId : o.header.blockId = id
  blockName : o.header.blockName = blockName.chars

/-- A new reference: the count and the next access id go up. -/
def ShmObject.retained (o : ShmObject) : ShmObject :=
  { o with header := { o.header with refcount := o.header.refcount + 1
                                     idCounter := o.header.idCounter + 1 } }

/-- A successful `shared_memory_block_open`. -/
structure Opened (k : Kernel) (blockName : BlockName) (id : UInt64) (access : AccessMode)
    (block : SharedMemoryBlock) (k' : Kernel) : Prop where
  linked : k.names (makeBlockNameBasedOnId blockName.chars id) = some block.obj
  accessId : block.accessId = (k.header block.obj).idCounter
  size_eq : block.size = (k.header block.obj).blockSize
  accessMode : block.accessMode = access
  hasOwnership : block.hasOwnership = false
  kernel : k' = k.modifyObj block.obj ShmObject.retained

section Reads

variable {E : IpmResult → World → Prop} {S : Stop → World → Prop} {obj : Nat}
variable {blockName : BlockName} {id : UInt64} {header memory : Nat}

theorem readSize_post (h : memoryPageSize.toNat ≤ (w.kernel.objs obj).length) :
    Prog.Post (readSize obj) w (fun size w' => w' = w ∧ size = (w.kernel.header obj).blockSize)
      E S := by
  refine (getHeader_post h).bind fun hd w1 h1 => ?_
  obtain ⟨rfl, rfl⟩ := h1
  exact Prog.Post.pure ⟨rfl, rfl⟩

/-- A count is there, or the wait for it does not end. -/
theorem awaitRefcount_there_post (hpage : memoryPageSize.toNat ≤ (w.kernel.objs obj).length) :
    Prog.Post (awaitRefcount obj) w
      (fun _ w' => w' = w ∧ (w.kernel.header obj).refcount ≠ 0) E
      (fun why w' => (why = .spin ∧ (w.kernel.header obj).refcount = 0) ∧ w' = w) := by
  refine (getHeader_post hpage).bind fun hd w1 h1 => ?_
  obtain ⟨rfl, rfl⟩ := h1
  by_cases hzero : (w1.kernel.header obj).refcount = 0
  · rw [if_pos hzero]
    exact Prog.Post.halt ⟨⟨rfl, hzero⟩, rfl⟩
  · rw [if_neg hzero]
    exact Prog.Post.pure ⟨rfl, hzero⟩

/-- An open that gets through the wait has found a header page and a count. -/
theorem awaitRefcount_any_post :
    Prog.Post (awaitRefcount obj) w
      (fun _ w' => w' = w ∧ memoryPageSize.toNat ≤ (w.kernel.objs obj).length ∧
        (w.kernel.header obj).refcount ≠ 0) E (fun _ w' => w' = w) := by
  by_cases hpage : memoryPageSize.toNat ≤ (w.kernel.objs obj).length
  · exact (awaitRefcount_there_post hpage).mono (fun _ _ h => ⟨h.1, hpage, h.2⟩) (fun _ _ h => h)
      fun _ _ h => h.2
  · have hstop : getHeader obj w = .stop .fault w := if_pos (Nat.lt_of_not_le hpage)
    rw [Prog.post_iff, awaitRefcount, Prog.bind_stop hstop]

/-- A positive count lets an opener through. -/
theorem awaitRefcount_post (h : (w.kernel.objs obj).Serves blockName id) :
    Prog.Post (awaitRefcount obj) w (fun _ w' => w' = w) E S :=
  (awaitRefcount_there_post h.length).mono (fun _ _ h' => h'.1) (fun _ _ h' => h')
    fun _ _ h' => absurd h'.1.2 h.refcount

theorem checkBlockId_post (h : (w.kernel.objs file.obj).Serves blockName id) :
    Prog.Post (checkBlockId ctx os file size header memory id) w (fun _ w' => w' = w) E S := by
  refine (getHeader_post h.length).bind fun hd w1 h1 => ?_
  obtain ⟨rfl, rfl⟩ := h1
  have hid : (w1.kernel.header file.obj).blockId = id := h.blockId
  rw [if_neg (not_not.mpr hid)]
  exact Prog.Post.pure rfl

theorem checkBlockName_post (h : (w.kernel.objs file.obj).Serves blockName id) :
    Prog.Post (checkBlockName ctx os file size header memory blockName.chars) w
      (fun _ w' => w' = w) E S := by
  refine (getHeader_post h.length).bind fun hd w1 h1 => ?_
  obtain ⟨rfl, rfl⟩ := h1
  have hprefix : blockName.chars.isPrefixOf (w1.kernel.header file.obj).blockName = true := by
    rw [Kernel.header, h.blockName]
    exact List.isPrefixOf_iff_prefix.mpr (List.prefix_refl _)
  rw [if_pos hprefix]
  exact Prog.Post.pure rfl

end Reads

/-- **What `shared_memory_block_open` does to the kernel** when whatever is linked under the name is
finished and held. -/
theorem sharedMemoryBlockOpen_post {blockName : BlockName} {id : UInt64} {access : AccessMode}
    {S : Stop → World → Prop} (hos : os.Sound)
    (hserves : ∀ obj, w.kernel.names (makeBlockNameBasedOnId blockName.chars id) = some obj →
      (w.kernel.objs obj).Serves blockName id) :
    Prog.Post (sharedMemoryBlockOpen ctx os blockName id access) w
      (fun block w' => Opened w.kernel blockName id access block w'.kernel)
      (fun e w' => OpenFailed ctx os w.kernel (makeBlockNameBasedOnId blockName.chars id) e
        w'.kernel) S := by
  unfold sharedMemoryBlockOpen
  refine (openLookup_post _).bind fun file w1 h1 => ?_
  obtain ⟨hlinked, h1⟩ := h1
  refine (mapHeader_post hos).bind fun header w2 h2 => ?_
  have hw2 : w2.kernel = w.kernel := h2.trans h1
  have hs : (w2.kernel.objs file.obj).Serves blockName id := hw2 ▸ hserves _ hlinked
  refine (readSize_post hs.length).bind fun size w3 h3 => ?_
  obtain ⟨hw3, hsize⟩ := h3
  subst w3
  refine (openMapBody_post _ hlinked hw2).bind fun memory w4 h4 => ?_
  rw [hw2, ← h4] at hs
  refine (awaitRefcount_post hs).bind fun _ w5 h5 => ?_
  subst w5
  refine (checkBlockId_post hs).bind fun _ w5 h5 => ?_
  subst w5
  refine (checkBlockName_post hs).bind fun _ w5 h5 => ?_
  subst w5
  refine (setHeader_post hs.length).bind fun _ w5 h5 => ?_
  refine (takeAccessId_post (by simpa [h5] using hs.length)).bind fun accessId w6 h6 => ?_
  obtain ⟨hid, h6⟩ := h6
  rw [h5, h4, Kernel.modifyObj_modifyObj] at h6
  refine Prog.Post.pure ⟨hlinked, ?_, ?_, rfl, rfl, h6⟩
  · rw [hid, h5, h4, Kernel.header, Kernel.objs_modifyObj_self]
    rfl
  · rw [hsize, hw2]
    rfl

/-! ## `shared_memory_block_close` -/

/-- One reference less. -/
def ShmObject.dropped (o : ShmObject) : ShmObject :=
  { o with header := { o.header with refcount := o.header.refcount - 1 } }

/-- The end of the last close: what the callback did to the list's synchronisation objects (`cell`),
and the segment mutex destroyed. -/
def ShmObject.retired (cell : Cell → Cell) (o : ShmObject) : ShmObject :=
  { o with header := { o.header with refcount := 0, segmentMutex := .destroyed }
           listSync := cell o.listSync }

/-- What a close of `obj`, linked under `path`, makes of the kernel. -/
def Kernel.closed (k : Kernel) (path : CString) (obj : Nat) (cell : Cell → Cell) : Kernel :=
  if (k.header obj).refcount = 1 then (k.modifyObj obj (ShmObject.retired cell)).unlink path
  else k.modifyObj obj ShmObject.dropped

theorem unmapBlock_post {E : IpmResult → World → Prop} {S : Stop → World → Prop}
    {block : SharedMemoryBlock}
    (h : memoryPageSize.toNat ≤ (w.kernel.objs block.obj).length) :
    Prog.Post (unmapBlock os block) w (fun _ w' => w'.kernel = w.kernel) E S := by
  refine (getHeader_post h).bind fun hd w1 h1 => munmap_post.bind fun _ w2 h2 => ?_
  refine munmap_post.mapRet fun _ w3 h3 => ?_
  rw [h3, h2, h1.1]

theorem unlinkBlock_post {E : IpmResult → World → Prop} {S : Stop → World → Prop}
    {block : SharedMemoryBlock} {blockName : BlockName} {id : UInt64} (hos : os.unlink = none)
    (hlen : memoryPageSize.toNat ≤ (w.kernel.objs block.obj).length)
    (hid : (w.kernel.header block.obj).blockId = id)
    (hbn : (w.kernel.header block.obj).blockName = blockName.chars)
    (hlinked : w.kernel.names (makeBlockNameBasedOnId blockName.chars id) = some block.obj) :
    Prog.Post (unlinkBlock ctx os block) w
      (fun _ w' => w'.kernel = w.kernel.unlink (makeBlockNameBasedOnId blockName.chars id)) E S := by
  refine (getHeader_post hlen).bind fun hd w1 h1 => munmap_post.bind fun _ w2 h2 => ?_
  obtain ⟨hw1, hhd⟩ := h1
  subst w1
  refine munmap_post.bind fun _ w3 h3 => ?_
  have hw3 : w3.kernel = w.kernel := h3.trans h2
  rw [hhd, hid, hbn]
  have hunlink : shmUnlink os (makeBlockNameBasedOnId blockName.chars id) w3 = .ret (.ok true)
      { w3 with kernel := w3.kernel.unlink (makeBlockNameBasedOnId blockName.chars id) } := by
    simp [shmUnlink, hos, hw3, hlinked]
  rw [Prog.post_iff, Prog.bind_ok hunlink]
  simp [hw3]

/-- **What `shared_memory_block_close` does to the kernel**: one reference less, and with the last
one the object is retired and unlinked. It always returns. -/
theorem sharedMemoryBlockClose_post {E : IpmResult → World → Prop} {S : Stop → World → Prop}
    {block : SharedMemoryBlock} {blockName : BlockName} {id : UInt64} {callback : Call Unit}
    {cell : Cell → Cell} (hos : os.unlink = none) (hown : block.hasOwnership = false)
    (hserves : (w.kernel.objs block.obj).Serves blockName id)
    (hlinked : w.kernel.names (makeBlockNameBasedOnId blockName.chars id) = some block.obj)
    (hcallback : ∀ w' : World, Prog.Post callback w' (fun _ w'' => w''.kernel =
      w'.kernel.modifyObj block.obj fun o => { o with listSync := cell o.listSync }) E S) :
    Prog.Post (sharedMemoryBlockClose b ctx os block callback) w
      (fun _ w' => w'.kernel =
        w.kernel.closed (makeBlockNameBasedOnId blockName.chars id) block.obj cell) E S := by
  unfold sharedMemoryBlockClose Kernel.closed
  generalize hpath : makeBlockNameBasedOnId blockName.chars id = path at hlinked
  refine (Prog.Post.assert_holds fun _ => by simp [hown]).bind ?_
  intro _ w₀ hw₀
  subst w₀
  refine closeFd_post.bind fun _ w1 h1 => ?_
  have hlen : memoryPageSize.toNat ≤ (w1.kernel.objs block.obj).length := h1 ▸ hserves.length
  refine ((getHeader_post hlen).bind fun hd w2 h2 => ?_ : Prog.Post (releaseRef block.obj) w1
    (fun refs w' => refs = (w.kernel.header block.obj).refcount ∧
      w'.kernel = w.kernel.modifyObj block.obj ShmObject.dropped) E S).bind ?_
  · obtain ⟨hw2, hhd⟩ := h2
    subst w2
    refine (setHeader_post hlen).bind fun _ w3 h3 => Prog.Post.pure ⟨?_, ?_⟩
    · rw [hhd, h1]
    · rw [h3, h1]; rfl
  intro refs w2 h2
  obtain ⟨hrefs, h2⟩ := h2
  rw [← hrefs]
  by_cases hlast : refs = 1
  · rw [if_pos hlast, if_pos hlast]
    refine (hcallback w2).bind fun _ w3 h3 => ?_
    rw [h2, Kernel.modifyObj_modifyObj] at h3
    refine (setHeader_post (by rw [h3]; simpa [ShmObject.dropped] using hserves.length)).bind
      fun _ w4 h4 => ?_
    rw [h3, Kernel.modifyObj_modifyObj] at h4
    have hretired : w4.kernel = w.kernel.modifyObj block.obj (ShmObject.retired cell) := by
      rw [h4, Kernel.modifyObj, Kernel.modifyObj]
      have hzero : (w.kernel.objs block.obj).header.refcount - 1 = 0 := by
        have hone : (w.kernel.objs block.obj).header.refcount = 1 := hrefs.symm.trans hlast
        rw [hone]; rfl
      simp [ShmObject.retired, ShmObject.dropped, hzero]
    rw [← hretired, ← hpath]
    refine unlinkBlock_post hos ?_ ?_ ?_ ?_
    · simpa [hretired, ShmObject.retired] using hserves.length
    · simpa [hretired, ShmObject.retired, Kernel.header] using hserves.blockId
    · simpa [hretired, ShmObject.retired, Kernel.header] using hserves.blockName
    · rw [hretired, hpath]; exact hlinked
  · rw [if_neg hlast, if_neg hlast]
    refine (unmapBlock_post (by rw [h2]; simpa [ShmObject.dropped] using hserves.length)).mapRet ?_
    exact fun _ w3 h3 => h3.trans h2

end Ipm
