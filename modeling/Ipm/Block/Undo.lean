import Ipm.Block.Naming
import Ipm.Block.Unmap

/-!
# What a failed call leaves in its process

`shared_memory_block_create` and `shared_memory_block_open` take a descriptor and two mappings, one after
another, and whoever fails has to give back what there is by then. `Holding` is what a call has taken so
far, and `Undone` what is left when it has been given back: pages that were taken and given back show
nothing, whatever they showed before.

Which way a call ends is decided by what the environment answers (`Os.Creates`, `Os.Opens`). The one answer
that no error is returned for is that of the `mmap` of the header: `Os.Wild` and `Os.OpensWild` say when it
is asked for in vain.
-/

set_option autoImplicit false

namespace Ipm

open Lib

/-! ## Descriptors and allocations -/

/-- What a process has besides its mappings. -/
def World.counts (w : World) : List Nat × Nat := (w.proc.fds, w.proc.allocs)

section Counts

variable {ctx : Context} {os : Os} {file : File} {path : CString} {obj : Nat} {w : World}

/-- A call that opens and closes nothing, and does not allocate. -/
abbrev KeepsCounts {α : Type} (p : Call α) : Prop := Prog.Keeps World.counts p

theorem errno_keepsCounts : KeepsCounts errno := fun _ => Prog.post_iff.mpr rfl

theorem ipmError_keepsCounts : KeepsCounts (ipmError ctx) := fun _ => Prog.post_iff.mpr rfl

theorem munmap_keepsCounts {addr : Nat} {length : UInt64} : KeepsCounts (munmap os addr length) := by
  intro w
  apply Prog.Post.update
  split
  · rfl
  · rfl

theorem ftruncate_keepsCounts {length : UInt64} : KeepsCounts (ftruncate os file length) := by
  intro w
  rw [Prog.post_iff, ftruncate]
  by_cases hbig : lengthLimit ≤ length.toNat
  · simp [hbig, World.setErrno, World.counts]
  · cases os.ftruncate with
    | some f => simp [hbig, World.setErrno, World.counts]
    | none => simp [hbig, World.counts]

theorem shmUnlink_keepsCounts : KeepsCounts (shmUnlink os path) := by
  intro w
  rw [Prog.post_iff, shmUnlink]
  cases os.unlink with
  | some e => rfl
  | none => cases w.kernel.names path <;> rfl

theorem getHeader_keepsCounts : KeepsCounts (getHeader obj) := by
  intro w
  exact getHeader_any_post.mono (fun _ _ h => h.1 ▸ rfl) (fun _ _ h => h) fun _ _ h => h ▸ rfl

theorem setHeader_keepsCounts {f : Header → Header} : KeepsCounts (setHeader obj f) := by
  intro w
  rw [Prog.post_iff, setHeader]
  by_cases h : (w.kernel.objs obj).length < memoryPageSize.toNat
  · simp [h]
  · simp [h, World.counts]

theorem closeFd_closes {E : IpmResult → World → Prop} {S : Stop → World → Prop} :
    Prog.Post (closeFd os file) w (fun _ w' => Undisturbed w w' ∧
      w'.counts = (w.proc.fds.erase file.fd, w.proc.allocs)) E S :=
  Prog.post_iff.mpr ⟨⟨rfl, rfl⟩, rfl⟩

end Counts

/-! ## Taking and giving back -/

/-- A call that began in `p` has the descriptor `fd`, and has mapped some of the pages in `R`. -/
structure Holding (R : Nat → Prop) (p : Proc) (fd : Nat) (w : World) : Prop where
  counts : w.counts = (fd :: p.fds, p.allocs)
  pages : ∀ page, ¬ R page → w.proc.pages page = p.pages page

/-- It has given everything back: no page but those in `R` is another one than before, and they show
nothing now. -/
structure Undone (R : Nat → Prop) (p : Proc) (w : World) : Prop where
  counts : w.counts = (p.fds, p.allocs)
  pages : ∀ page, w.proc.pages page = p.pages page ∨ R page ∧ w.proc.pages page = none

section Holding

variable {R R' : Nat → Prop} {p : Proc} {fd : Nat} {w w' : World}

theorem Holding.keep (h : Holding R p fd w) (hcounts : w'.counts = w.counts)
    (hpages : w'.proc.pages = w.proc.pages) : Holding R p fd w' := by
  refine ⟨hcounts.trans h.counts, ?_⟩
  intro page hpage
  rw [hpages]
  exact h.pages page hpage

theorem Holding.congr (h : Holding R p fd w) (hiff : ∀ page, R page ↔ R' page) : Holding R' p fd w :=
  ⟨h.counts, fun page hpage => h.pages page fun hr => hpage ((hiff page).mp hr)⟩

/-- Closing the descriptor and unmapping the pages. -/
theorem Holding.undone (h : Holding R p fd w) (hunmapped : Unmapped R w w')
    (hcounts : w'.counts = (w.proc.fds.erase fd, w.proc.allocs)) : Undone R p w' := by
  obtain ⟨hfds, hallocs⟩ := Prod.mk.inj h.counts
  constructor
  · rw [hcounts, hfds, hallocs, List.erase_cons_head]
  · intro page
    by_cases hr : R page
    · exact .inr ⟨hr, hunmapped.gone page hr⟩
    · exact .inl ((hunmapped.kept page hr).trans (h.pages page hr))

theorem Undone.mono (h : Undone R p w) (hsub : ∀ page, R page → R' page) : Undone R' p w :=
  ⟨h.counts, fun page => (h.pages page).imp_right fun hr => ⟨hsub page hr.1, hr.2⟩⟩

theorem Undone.of_same (hcounts : w.counts = (p.fds, p.allocs)) (hpages : w.proc.pages = p.pages) :
    Undone R p w := ⟨hcounts, fun page => .inl (congrFun hpages page)⟩

end Holding

/-- The two mappings of a block. -/
def Mappings (header memory : Nat) (size : UInt64) (page : Nat) : Prop :=
  Covers header memoryPageSize page ∨ Covers memory size page

/-- An end of a function that gives back the descriptor of `file` and the pages in `R`, and fails. -/
def GivesBack {α : Type} (file : File) (R : Nat → Prop) (q : Call α) : Prop :=
  ∀ (w : World) (S : Stop → World → Prop), Prog.Post q w (fun _ _ => False)
    (fun _ w' => Unmapped R w w' ∧ w'.counts = (w.proc.fds.erase file.fd, w.proc.allocs)) S

/-- What was held is given back. -/
theorem GivesBack.fails {α : Type} {file : File} {R R' : Nat → Prop} {q : Call α} {p : Proc}
    {w : World} {S : Stop → World → Prop} (hq : GivesBack file R q) (h : Holding R p file.fd w)
    (hsub : ∀ page, R page → R' page) :
    Prog.Post q w (fun _ _ => False) (fun _ w' => Undone R' p w') S :=
  (hq w S).mono (fun _ _ h' => h') (fun _ _ h' => (h.undone h'.1 h'.2).mono hsub) fun _ _ h' => h'

section Ends

variable {ctx : Context} {os : Os} {file : File} {path : CString} {size : UInt64} {header memory : Nat}

section Steps

variable {w : World} {E : IpmResult → World → Prop} {S : Stop → World → Prop}

theorem ipmError_idle :
    Prog.Post (ipmError ctx) w (fun _ w' => Undisturbed w w' ∧ w'.counts = w.counts) E S :=
  ipmError_undisturbed.also (ipmError_keepsCounts w)

theorem errno_idle :
    Prog.Post errno w (fun _ w' => Undisturbed w w' ∧ w'.counts = w.counts) E S :=
  errno_undisturbed.also (errno_keepsCounts w)

theorem shmUnlink_idle :
    Prog.Post (shmUnlink os path) w (fun _ w' => Undisturbed w w' ∧ w'.counts = w.counts) E S :=
  shmUnlink_undisturbed.also (shmUnlink_keepsCounts w)

theorem munmap_frees {addr : Nat} (hin : InSpace addr size) :
    Prog.Post (munmap os addr size) w
      (fun _ w' => Unmapped (Covers addr size) w w' ∧ w'.counts = w.counts) E S := by
  rw [← reaches_of_inSpace hin]
  exact munmap_unmaps.also (munmap_keepsCounts w)

end Steps

theorem unmapped_of_undisturbed {w w' : World} (h : Undisturbed w w') :
    Unmapped (fun _ => False) w w' :=
  ⟨fun _ hfalse => hfalse.elim, fun page _ => congrFun h.pages page, h.extent⟩

/-- `createTruncate`, when `ftruncate` fails. -/
theorem truncate_givesBack :
    GivesBack file (fun _ => False) (do
      ipmError ctx
      closeFd os file
      let _ ← shmUnlink os path
      Prog.fail (createTruncateError (← errno)) : Call Unit) := by
  intro w S
  refine ipmError_idle.bind fun _ w1 h1 => ?_
  refine closeFd_closes.bind fun _ w2 h2 => ?_
  refine shmUnlink_idle.bind fun _ w3 h3 => ?_
  refine errno_idle.bind fun e w4 h4 => Prog.Post.fail ?_
  refine ⟨unmapped_of_undisturbed (((h1.1.trans h2.1).trans h3.1).trans h4.1), ?_⟩
  obtain ⟨hfds, hallocs⟩ := Prod.mk.inj h1.2
  rw [h4.2, h3.2, h2.2, hfds, hallocs]

/-- `createMapBody`, when `mmap` fails. -/
theorem mapBody_givesBack :
    GivesBack file (fun _ => False) (do
      closeFd os file
      ipmError ctx
      let _ ← shmUnlink os path
      Prog.fail (mapError (← errno)) : Call Nat) := by
  intro w S
  refine closeFd_closes.bind fun _ w1 h1 => ?_
  refine ipmError_idle.bind fun _ w2 h2 => ?_
  refine shmUnlink_idle.bind fun _ w3 h3 => ?_
  refine errno_idle.bind fun e w4 h4 => Prog.Post.fail ?_
  refine ⟨unmapped_of_undisturbed (((h1.1.trans h2.1).trans h3.1).trans h4.1), ?_⟩
  rw [h4.2, h3.2, h2.2, h1.2]

/-- `createMutex`, when `ipm_mutex_init` fails. -/
theorem mutex_givesBack {res : IpmResult} (hheader : InSpace header memoryPageSize)
    (hbody : InSpace memory size) :
    GivesBack file (Mappings header memory size) (do
      closeFd os file
      ipmError ctx
      munmap os header memoryPageSize
      munmap os memory size
      let _ ← shmUnlink os path
      Prog.fail res : Call Unit) := by
  intro w S
  refine closeFd_closes.bind fun _ w1 h1 => ?_
  refine ipmError_idle.bind fun _ w2 h2 => ?_
  refine (munmap_frees hheader).bind fun _ w3 h3 => ?_
  refine (munmap_frees hbody).bind fun _ w4 h4 => ?_
  refine shmUnlink_idle.bind fun _ w5 h5 => Prog.Post.fail ?_
  refine ⟨((h3.1.trans h4.1).after (h1.1.trans h2.1)).before h5.1, ?_⟩
  rw [h5.2, h4.2, h3.2, h2.2, h1.2]

/-- `openMapBody`, when `mmap` fails. -/
theorem openBody_givesBack (hheader : InSpace header memoryPageSize) :
    GivesBack file (Covers header memoryPageSize) (do
      closeFd os file
      munmap os header memoryPageSize
      ipmError ctx
      Prog.fail (mapError (← errno)) : Call Nat) := by
  intro w S
  refine closeFd_closes.bind fun _ w1 h1 => ?_
  refine (munmap_frees hheader).bind fun _ w2 h2 => ?_
  refine ipmError_idle.bind fun _ w3 h3 => ?_
  refine errno_idle.bind fun e w4 h4 => Prog.Post.fail ?_
  refine ⟨(h2.1.after h1.1).before (h3.1.trans h4.1), ?_⟩
  rw [h4.2, h3.2, h2.2, h1.2]

/-- `openMismatch`. -/
theorem openMismatch_givesBack (hheader : InSpace header memoryPageSize)
    (hbody : InSpace memory size) :
    GivesBack file (Mappings header memory size)
      (openMismatch ctx os file size header memory) := by
  intro w S
  refine closeFd_closes.bind fun _ w1 h1 => ?_
  refine ipmError_idle.bind fun _ w2 h2 => ?_
  refine (munmap_frees hheader).bind fun _ w3 h3 => ?_
  refine (munmap_frees hbody).bind fun _ w4 h4 => Prog.Post.fail ?_
  refine ⟨(h3.1.trans h4.1).after (h1.1.trans h2.1), ?_⟩
  rw [h4.2, h3.2, h2.2, h1.2]

end Ends

/-! ## `shared_memory_block_create` -/

/-- The pages of one mapping more. -/
theorem mmap_takes {res : Except Failure Nat} {file : File} {length offset : UInt64}
    {access : AccessMode} {R : Nat → Prop} {p : Proc} {fd : Nat} {w : World}
    {E : IpmResult → World → Prop} {S : Stop → World → Prop} (h : Holding R p fd w) :
    Prog.Post (mmap res file length access offset) w
      (fun r w' => match r with
        | some addr => res = .ok addr ∧ Maps res length ∧
          Holding (fun page => Covers addr length page ∨ R page) p fd w'
        | none => ¬ Maps res length ∧ Holding R p fd w') E S := by
  refine mmap_cases_post.mapRet fun r w' h' => ?_
  cases h' with
  | mapped hmaps hres =>
    refine ⟨hres, hmaps, h.counts, ?_⟩
    intro page hpage
    rw [not_or] at hpage
    exact (if_neg hpage.1).trans (h.pages page hpage.2)
  | refused hnot => exact ⟨hnot, h.keep rfl rfl⟩

/-- `shared_memory_block_create` gets as far as mapping the header. -/
structure Os.ReachesHeader (os : Os) (b : Build) (size : UInt64) (path : CString) (k : Kernel) : Prop where
  sizeOk : SizeOk b size
  shmOpen : os.shmOpen.isOk = true
  free : k.names path = none
  ftruncate : os.ftruncate = none ∧ (size + memoryPageSize).toNat < lengthLimit
  body : Maps os.bodyMmap size

/-- ... and to its end. -/
structure Os.Creates (os : Os) (b : Build) (size : UInt64) (path : CString) (k : Kernel) : Prop
    extends os.ReachesHeader b size path k where
  header : Maps os.headerMmap memoryPageSize
  mutex : os.mutexInit = ⟨0, 0, 0, 0, 0⟩

/-- The header is wanted and cannot be had. -/
def Os.Wild (os : Os) (b : Build) (size : UInt64) (path : CString) (k : Kernel) : Prop :=
  os.ReachesHeader b size path k ∧ ¬ Maps os.headerMmap memoryPageSize

theorem Os.Wild.not_creates {os : Os} {b : Build} {size : UInt64} {path path' : CString} {k k' : Kernel}
    (h : os.Wild b size path k) : ¬ os.Creates b size path' k' := by
  intro hcreates
  exact h.2 hcreates.header

/-- Where a call for a block of `size` bytes may map. -/
def Os.Region (os : Os) (size : UInt64) (page : Nat) : Prop :=
  (∃ addr, os.bodyMmap = .ok addr ∧ Covers addr size page) ∨
    ∃ addr, os.headerMmap = .ok addr ∧ Covers addr memoryPageSize page

/-- A block that was created or opened, as its process has it. -/
structure Taken (os : Os) (p : Proc) (block : SharedMemoryBlock) (w : World) : Prop where
  body : os.bodyMmap = .ok block.memory
  header : os.headerMmap = .ok block.header
  space : block.InSpace block.size
  holding : Holding (block.Range block.size) p block.memFd.fd w

/-- What `ftruncate` needs to succeed. -/
theorem ftruncate_done_post {os : Os} {file : File} {length : UInt64} {w : World}
    {E : IpmResult → World → Prop} {S : Stop → World → Prop} :
    Prog.Post (ftruncate os file length) w
      (fun done _ => done = true ↔ os.ftruncate = none ∧ length.toNat < lengthLimit) E S := by
  rw [Prog.post_iff, ftruncate]
  by_cases hbig : lengthLimit ≤ length.toNat
  · simp [hbig, Nat.not_lt.mpr hbig]
  · cases os.ftruncate with
    | some f => simp [hbig]
    | none => simp [hbig, Nat.lt_of_not_le hbig]

section Create

variable {b : Build} {ctx : Context} {os : Os} {path : CString} {file : File} {size : UInt64}
variable {w : World} {p : Proc} {R : Nat → Prop} {fd header memory : Nat}
variable {E : IpmResult → World → Prop} {S : Stop → World → Prop}

/-- What follows a lookup that has failed. -/
theorem lookup_fails {missing : IpmResult} {w₁ : World} (hcounts : w₁.counts = w.counts)
    (hpages : w₁.proc.pages = w.proc.pages) :
    Prog.Post (do
        if (← errno) = .EEXIST then Prog.fail .errExists
        else
          ipmError ctx
          Prog.fail (lookupError missing (← errno)) : Call File) w₁ (fun _ _ => False)
      (fun _ w' => Undone R w.proc w') S := by
  refine errno_idle.bind fun e w2 h2 => ?_
  have hundone : ∀ w' : World, w'.counts = w₁.counts → w'.proc.pages = w₁.proc.pages →
      Undone R w.proc w' := fun w' hc hp => .of_same (hc.trans hcounts) (hp.trans hpages)
  split
  · exact Prog.Post.fail (hundone w2 h2.2 h2.1.pages)
  · refine ipmError_idle.bind fun _ w3 h3 => ?_
    refine errno_idle.bind fun _ w4 h4 => Prog.Post.fail ?_
    exact hundone w4 (h4.2.trans (h3.2.trans h2.2)) (((h2.1.trans h3.1).trans h4.1).pages)

/-- A lookup that succeeds takes a descriptor. -/
theorem createOpen_takes :
    Prog.Post (createOpen ctx os path) w
      (fun file w' => os.shmOpen.isOk = true ∧ w.kernel.names path = none ∧
        Holding (fun _ => False) w.proc file.fd w')
      (fun _ w' => ¬ (os.shmOpen.isOk = true ∧ w.kernel.names path = none) ∧
        Undone R w.proc w') S := by
  have hlook : Prog.Post (shmOpenExcl os path) w
      (fun r w' => r.elim
        (¬ (os.shmOpen.isOk = true ∧ w.kernel.names path = none) ∧
          w'.counts = w.counts ∧ w'.proc.pages = w.proc.pages)
        fun file => os.shmOpen.isOk = true ∧ w.kernel.names path = none ∧
          Holding (fun _ => False) w.proc file.fd w') (fun _ _ => False) S := by
    rw [Prog.post_iff, shmOpenExcl]
    cases os.shmOpen with
    | error f => exact ⟨fun h => Bool.false_ne_true h.1, rfl, rfl⟩
    | ok fd =>
      cases hname : w.kernel.names path with
      | some obj => exact ⟨fun h => Option.some_ne_none obj h.2, rfl, rfl⟩
      | none => exact ⟨rfl, rfl, rfl, fun _ _ => rfl⟩
  refine (hlook.mono (fun _ _ h => h) (fun _ _ h => h.elim) fun _ _ h => h).bind fun r w1 h1 => ?_
  cases r with
  | some file => exact Prog.Post.pure h1
  | none =>
    exact (lookup_fails h1.2.1 h1.2.2).mono (fun _ _ h => h.elim) (fun _ _ h => ⟨h1.1, h⟩)
      fun _ _ h => h

theorem createTruncate_takes (h : Holding (fun _ => False) p file.fd w) :
    Prog.Post (createTruncate ctx os path file size) w
      (fun _ w' => (os.ftruncate = none ∧ (size + memoryPageSize).toNat < lengthLimit) ∧
        Holding (fun _ => False) p file.fd w')
      (fun _ w' => ¬ (os.ftruncate = none ∧ (size + memoryPageSize).toNat < lengthLimit) ∧
        Undone R p w') S := by
  refine ((ftruncate_done_post.also (ftruncate_keepsCounts w)).also
    (ftruncate_keepsPages w)).bind fun done w1 h1 => ?_
  obtain ⟨⟨hdone, hcounts⟩, hpages⟩ := h1
  have h' := h.keep hcounts hpages
  cases done with
  | true => exact Prog.Post.pure ⟨hdone.mp rfl, h'⟩
  | false =>
    refine (truncate_givesBack.fails h' fun _ hfalse => hfalse.elim).mono (fun _ _ h => h.elim)
      (fun _ _ h => ⟨fun hmay => ?_, h⟩) fun _ _ h => h
    exact Bool.false_ne_true (hdone.mpr hmay)

theorem createMapBody_takes {access : AccessMode} (h : Holding (fun _ => False) p file.fd w) :
    Prog.Post (createMapBody ctx os path file size access) w
      (fun memory w' => os.bodyMmap = .ok memory ∧ Maps os.bodyMmap size ∧
        Holding (Covers memory size) p file.fd w')
      (fun _ w' => ¬ Maps os.bodyMmap size ∧ Undone R p w') S := by
  refine (mmap_takes h).bind fun r w1 h1 => ?_
  cases r with
  | some addr => exact Prog.Post.pure ⟨h1.1, h1.2.1, h1.2.2.congr fun _ => iff_of_eq (or_false _)⟩
  | none =>
    exact (mapBody_givesBack.fails h1.2 fun _ hfalse => hfalse.elim).mono (fun _ _ h => h.elim)
      (fun _ _ h => ⟨h1.1, h⟩) fun _ _ h => h

theorem mapHeader_takes (h : Holding R p fd w)
    (hS : ¬ Maps os.headerMmap memoryPageSize → ∀ w', S .fault w') :
    Prog.Post (mapHeader os file) w
      (fun header w' => os.headerMmap = .ok header ∧ Maps os.headerMmap memoryPageSize ∧
        Holding (fun page => Covers header memoryPageSize page ∨ R page) p fd w') E S := by
  refine (mmap_takes h).bind fun r w1 h1 => ?_
  cases r with
  | some addr => exact Prog.Post.pure h1
  | none => exact Prog.Post.halt (hS h1.1 w1)

/-- A step that takes nothing and cannot fail, except at a header that is not there. -/
theorem setHeader_holding {obj : Nat} {f : Header → Header} (h : Holding R p fd w)
    (hS : ∀ w', S .fault w') :
    Prog.Post (setHeader obj f) w (fun _ w' => Holding R p fd w') E S := by
  have hfault : Prog.Post (setHeader obj f) w (fun _ _ => True) E S := by
    rw [Prog.post_iff, setHeader]
    by_cases hcut : (w.kernel.objs obj).length < memoryPageSize.toNat
    · simpa only [hcut, if_true] using hS w
    · simp only [hcut, if_false]
  exact ((hfault.also (setHeader_keepsCounts w)).also (setHeader_keepsPages w)).mapRet fun _ _ h' =>
    h.keep h'.1.2 h'.2

theorem getHeader_holding {obj : Nat} (h : Holding R p fd w) (hS : ∀ w', S .fault w') :
    Prog.Post (getHeader obj) w (fun _ w' => Holding R p fd w') E S := by
  have hfault : Prog.Post (getHeader obj) w (fun _ _ => True) E S := by
    rw [Prog.post_iff, getHeader]
    by_cases hcut : (w.kernel.objs obj).length < memoryPageSize.toNat
    · simpa only [hcut, if_true] using hS w
    · simp only [hcut, if_false]
  exact ((hfault.also (getHeader_keepsCounts w)).also (getHeader_keepsPages w)).mapRet fun _ _ h' =>
    h.keep h'.1.2 h'.2

theorem takeAccessId_holding {obj : Nat} (h : Holding R p fd w) (hS : ∀ w', S .fault w') :
    Prog.Post (takeAccessId obj) w (fun _ w' => Holding R p fd w') E S := by
  refine (getHeader_holding h hS).bind fun _ w1 h1 => ?_
  exact (setHeader_holding h1 hS).bind fun _ w2 h2 => Prog.Post.pure h2

theorem createMutex_takes (h : Holding (Mappings header memory size) p file.fd w)
    (hheader : InSpace header memoryPageSize) (hbody : InSpace memory size)
    (hS : ∀ w', S .fault w') :
    Prog.Post (createMutex ctx os path file size header memory) w
      (fun _ w' => os.mutexInit = ⟨0, 0, 0, 0, 0⟩ ∧ Holding (Mappings header memory size) p file.fd w')
      (fun _ w' => os.mutexInit ≠ ⟨0, 0, 0, 0, 0⟩ ∧ Undone (Mappings header memory size) p w') S := by
  refine errno_idle.bind fun e w1 h1 => ?_
  have h' := h.keep h1.2 h1.1.pages
  dsimp only
  split
  · rename_i hres
    refine ((mutex_givesBack hheader hbody).fails h' fun _ hr => hr).mono (fun _ _ h => h.elim)
      (fun _ _ h => ⟨fun hzero => hres ?_, h⟩) fun _ _ h => h
    exact ipmMutexInit_eq_success_iff.mpr hzero
  · rename_i hres
    rw [not_not] at hres
    exact (setHeader_holding h' hS).mapRet fun _ _ h => ⟨ipmMutexInit_eq_success_iff.mp hres, h⟩

/-- **What `shared_memory_block_create` takes, and what it leaves when it fails.** -/
theorem sharedMemoryBlockCreate_takes {blockName : BlockName} {id : UInt64} {access : AccessMode} :
    Prog.Post (sharedMemoryBlockCreate b ctx os blockName id size access) w
      (fun block w' => os.Creates b size (makeBlockNameBasedOnId blockName.chars id) w.kernel ∧
        block.size = size ∧ Taken os w.proc block w')
      (fun _ w' => ¬ os.Creates b size (makeBlockNameBasedOnId blockName.chars id) w.kernel ∧
        ¬ os.Wild b size (makeBlockNameBasedOnId blockName.chars id) w.kernel ∧
        Undone (os.Region size) w.proc w')
      (fun why _ => why = .assertion ∧ ¬ SizeOk b size ∨
        why = .fault ∧ os.ReachesHeader b size (makeBlockNameBasedOnId blockName.chars id) w.kernel) := by
  unfold sharedMemoryBlockCreate
  refine (Prog.Post.asserted.mapStop
    fun _ _ h => .inl ⟨h.1, not_sizeOk_of_mask h.2.2.1 h.2.2.2⟩).bind fun _ w₁ hmask => ?_
  refine (Prog.Post.asserted.mapStop
    fun _ _ h => .inl ⟨h.1, not_sizeOk_of_pos h.2.2.1 h.2.2.2⟩).bind fun _ w₂ hpos => ?_
  obtain ⟨rfl, hmask⟩ := hmask
  obtain ⟨rfl, hpos⟩ := hpos
  have hsize : SizeOk b size := by
    cases hb : b.ndebug with
    | true => exact .inl hb
    | false => exact .inr ⟨by simpa using hmask hb, of_decide_eq_true (hpos hb)⟩
  dsimp only
  generalize makeBlockNameBasedOnId blockName.chars id = path
  -- a call that does not get to the header can neither succeed nor go wild
  have hshort : ∀ {w' : World}, ¬ os.ReachesHeader b size path w₂.kernel →
      Undone (os.Region size) w₂.proc w' → ¬ os.Creates b size path w₂.kernel ∧
        ¬ os.Wild b size path w₂.kernel ∧ Undone (os.Region size) w₂.proc w' :=
    fun hnot hundone => ⟨fun h => hnot h.toReachesHeader, fun h => hnot h.1, hundone⟩
  refine (createOpen_takes.mono (fun _ _ h => h)
    (fun _ _ h => hshort (fun hr => h.1 ⟨hr.shmOpen, hr.free⟩) h.2) fun _ _ h => h).bind
    fun file w1 h1 => ?_
  obtain ⟨hopen, hfree, h1⟩ := h1
  refine ((createTruncate_takes h1).mono (fun _ _ h => h)
    (fun _ _ h => hshort (fun hr => h.1 hr.ftruncate) h.2) fun _ _ h => h).bind fun _ w2 h2 => ?_
  obtain ⟨htrunc, h2⟩ := h2
  refine ((createMapBody_takes h2).mono (fun _ _ h => h)
    (fun _ _ h => hshort (fun hr => h.1 hr.body) h.2) fun _ _ h => h).bind fun memory w3 h3 => ?_
  obtain ⟨hmemory, hmaps, h3⟩ := h3
  have hreach : os.ReachesHeader b size path w₂.kernel := ⟨hsize, hopen, hfree, htrunc, hmaps⟩
  have hstop : ∀ w' : World, Stop.fault = .assertion ∧ ¬ SizeOk b size ∨
      Stop.fault = .fault ∧ os.ReachesHeader b size path w₂.kernel := fun _ => .inr ⟨rfl, hreach⟩
  refine (mapHeader_takes h3 fun _ => hstop).bind fun header w4 h4 => ?_
  obtain ⟨hheader, hok, h4⟩ := h4
  refine (setHeader_holding h4 hstop).bind fun _ w5 h5 => ?_
  refine (setHeader_holding h5 hstop).bind fun _ w6 h6 => ?_
  refine (setHeader_holding h6 hstop).bind fun _ w7 h7 => ?_
  have hspace := hok.inSpace hheader
  have hspace' := hmaps.inSpace hmemory
  have hregion : ∀ page, Covers header memoryPageSize page ∨ Covers memory size page →
      os.Region size page := fun page hr => hr.symm.imp (fun h => ⟨_, hmemory, h⟩)
    fun h => ⟨_, hheader, h⟩
  have htame : ¬ os.Wild b size path w₂.kernel := by
    intro hwild
    exact hwild.2 hok
  refine ((createMutex_takes h7 hspace hspace' hstop).mono (fun _ _ h => h)
    (fun _ _ h => ⟨fun hc => h.1 hc.mutex, htame, h.2.mono hregion⟩) fun _ _ h => h).bind
    fun _ w8 h8 => ?_
  obtain ⟨hmutex, h8⟩ := h8
  refine (setHeader_holding h8 hstop).bind fun _ w9 h9 => ?_
  refine (takeAccessId_holding h9 hstop).bind fun accessId w10 h10 => ?_
  refine (setHeader_holding h10 hstop).bind fun _ w11 h11 => Prog.Post.pure ?_
  exact ⟨⟨hreach, hok, hmutex⟩, rfl, hmemory, hheader, ⟨hspace', hspace⟩, h11.congr fun _ => or_comm⟩

end Create

/-! ## `shared_memory_block_open` -/

/-- What `shared_memory_block_open` asks of the header it finds. -/
structure Os.Accepts (os : Os) (blockName : CString) (id : UInt64) (hd : Header) : Prop where
  body : Maps os.bodyMmap hd.blockSize
  refcount : hd.refcount ≠ 0
  blockId : hd.blockId = id
  blockName : blockName.isPrefixOf hd.blockName = true

/-- What `shared_memory_block_open` needs to succeed, with `obj` what it finds. -/
structure Os.Opens (os : Os) (blockName : BlockName) (id : UInt64) (k : Kernel) (obj : Nat) : Prop where
  shmOpen : os.shmOpen.isOk = true
  linked : k.names (makeBlockNameBasedOnId blockName.chars id) = some obj
  header : Maps os.headerMmap memoryPageSize ∧ memoryPageSize.toNat ≤ (k.objs obj).length
  accepts : os.Accepts blockName.chars id (k.header obj)

/-- The object is found, and its header cannot be mapped. -/
def Os.OpensWild (os : Os) (path : CString) (k : Kernel) : Prop :=
  os.shmOpen.isOk = true ∧ k.names path ≠ none ∧ ¬ Maps os.headerMmap memoryPageSize

theorem Os.OpensWild.not_opens {os : Os} {blockName : BlockName} {id : UInt64} {path : CString}
    {k k' : Kernel} {obj : Nat} (h : os.OpensWild path k) : ¬ os.Opens blockName id k' obj := by
  intro hopens
  exact h.2.2 hopens.header.1

/-- Where an open may map. -/
def Os.OpenRegion (os : Os) (path : CString) (k : Kernel) (page : Nat) : Prop :=
  ∃ obj, k.names path = some obj ∧ os.Region (k.header obj).blockSize page

section Open

variable {ctx : Context} {os : Os} {path : CString} {file : File} {size : UInt64}
variable {w : World} {p : Proc} {R : Nat → Prop} {fd header memory : Nat}
variable {E : IpmResult → World → Prop} {S : Stop → World → Prop}

theorem openLookup_takes :
    Prog.Post (openLookup ctx os path) w
      (fun file w' => (os.shmOpen.isOk = true ∧ w.kernel.names path = some file.obj) ∧
        Holding (fun _ => False) w.proc file.fd w')
      (fun _ w' => (os.shmOpen.isOk = true → w.kernel.names path = none) ∧
        Undone R w.proc w') S := by
  have hlook : Prog.Post (shmOpen os path) w
      (fun r w' => r.elim
        ((os.shmOpen.isOk = true → w.kernel.names path = none) ∧
          w'.counts = w.counts ∧ w'.proc.pages = w.proc.pages)
        fun file => (os.shmOpen.isOk = true ∧ w.kernel.names path = some file.obj) ∧
          Holding (fun _ => False) w.proc file.fd w') (fun _ _ => False) S := by
    rw [Prog.post_iff, shmOpen]
    cases os.shmOpen with
    | error f => exact ⟨fun h => absurd h Bool.false_ne_true, rfl, rfl⟩
    | ok fd =>
      cases hname : w.kernel.names path with
      | some obj => exact ⟨⟨rfl, rfl⟩, rfl, fun _ _ => rfl⟩
      | none => exact ⟨fun _ => rfl, rfl, rfl⟩
  refine (hlook.mono (fun _ _ h => h) (fun _ _ h => h.elim) fun _ _ h => h).bind fun r w1 h1 => ?_
  cases r with
  | some file => exact Prog.Post.pure h1
  | none =>
    exact (lookup_fails h1.2.1 h1.2.2).mono (fun _ _ h => h.elim) (fun _ _ h => ⟨h1.1, h⟩)
      fun _ _ h => h

/-- A read of the size: the header is there, or the process ends. -/
theorem readSize_there_post {obj : Nat} :
    Prog.Post (readSize obj) w
      (fun size w' => w' = w ∧ size = (w.kernel.header obj).blockSize ∧
        memoryPageSize.toNat ≤ (w.kernel.objs obj).length) E
      (fun why _ => why = .fault ∧ ¬ memoryPageSize.toNat ≤ (w.kernel.objs obj).length) := by
  by_cases hpage : memoryPageSize.toNat ≤ (w.kernel.objs obj).length
  · refine (getHeader_post hpage).bind fun hd w1 h1 => Prog.Post.pure ?_
    obtain ⟨rfl, rfl⟩ := h1
    exact ⟨rfl, rfl, hpage⟩
  · have hstop : getHeader obj w = .stop .fault w := if_pos (Nat.lt_of_not_le hpage)
    rw [Prog.post_iff, readSize, Prog.bind_stop hstop]
    exact ⟨rfl, hpage⟩

theorem openMapBody_takes {access : AccessMode}
    (h : Holding (Covers header memoryPageSize) p file.fd w)
    (hheader : InSpace header memoryPageSize) :
    Prog.Post (openMapBody ctx os file header size access) w
      (fun memory w' => os.bodyMmap = .ok memory ∧ Maps os.bodyMmap size ∧
        Holding (Mappings header memory size) p file.fd w')
      (fun _ w' => ¬ Maps os.bodyMmap size ∧ Undone (Covers header memoryPageSize) p w') S := by
  refine (mmap_takes h).bind fun r w1 h1 => ?_
  cases r with
  | some addr => exact Prog.Post.pure ⟨h1.1, h1.2.1, h1.2.2.congr fun _ => or_comm⟩
  | none =>
    exact ((openBody_givesBack hheader).fails h1.2 fun _ hr => hr).mono (fun _ _ h => h.elim)
      (fun _ _ h => ⟨h1.1, h⟩) fun _ _ h => h

/-- A check of the header: what is not the block looked for is let go. -/
theorem check_takes {P : Prop} [Decidable P] {q : Call Unit}
    (hq : GivesBack file (Mappings header memory size) q)
    (h : Holding (Mappings header memory size) p file.fd w) :
    Prog.Post (if P then pure () else q : Call Unit) w (fun _ w' => P ∧ w' = w)
      (fun _ w' => ¬ P ∧ Undone (Mappings header memory size) p w') S := by
  by_cases hP : P
  · rw [if_pos hP]
    exact Prog.Post.pure ⟨hP, rfl⟩
  · rw [if_neg hP]
    exact (hq.fails h fun _ hr => hr).mono (fun _ _ h => h.elim) (fun _ _ h => ⟨hP, h⟩)
      fun _ _ h => h

theorem checkBlockId_takes {id : UInt64}
    (h : Holding (Mappings header memory size) p file.fd w)
    (hheader : InSpace header memoryPageSize) (hbody : InSpace memory size)
    (hpage : memoryPageSize.toNat ≤ (w.kernel.objs file.obj).length) :
    Prog.Post (checkBlockId ctx os file size header memory id) w
      (fun _ w' => (w.kernel.header file.obj).blockId = id ∧ w' = w)
      (fun _ w' => (w.kernel.header file.obj).blockId ≠ id ∧
        Undone (Mappings header memory size) p w') S := by
  refine (getHeader_post hpage).bind fun hd w1 h1 => ?_
  obtain ⟨rfl, rfl⟩ := h1
  rw [ite_not]
  exact check_takes (openMismatch_givesBack hheader hbody) h

theorem checkBlockName_takes {blockName : CString}
    (h : Holding (Mappings header memory size) p file.fd w)
    (hheader : InSpace header memoryPageSize) (hbody : InSpace memory size)
    (hpage : memoryPageSize.toNat ≤ (w.kernel.objs file.obj).length) :
    Prog.Post (checkBlockName ctx os file size header memory blockName) w
      (fun _ w' => blockName.isPrefixOf (w.kernel.header file.obj).blockName = true ∧ w' = w)
      (fun _ w' => ¬ blockName.isPrefixOf (w.kernel.header file.obj).blockName = true ∧
        Undone (Mappings header memory size) p w') S := by
  refine (getHeader_post hpage).bind fun hd w1 h1 => ?_
  obtain ⟨rfl, rfl⟩ := h1
  exact check_takes (openMismatch_givesBack hheader hbody) h

/-- A write to a header that is there takes nothing. -/
theorem setHeader_there_holding {obj : Nat} {f : Header → Header} (h : Holding R p fd w)
    (hpage : memoryPageSize.toNat ≤ (w.kernel.objs obj).length) :
    Prog.Post (setHeader obj f) w (fun _ w' => Holding R p fd w' ∧
      memoryPageSize.toNat ≤ (w'.kernel.objs obj).length) E S := by
  refine (((setHeader_post hpage).also (setHeader_keepsCounts w)).also
    (setHeader_keepsPages w)).mono ?_ (fun _ _ h => h) fun _ _ h => h
  intro _ w' h'
  obtain ⟨⟨hkernel, hcounts⟩, hpages⟩ := h'
  refine ⟨h.keep hcounts hpages, ?_⟩
  rw [hkernel, Kernel.objs_modifyObj_self]
  exact hpage

theorem takeAccessId_there_holding {obj : Nat} (h : Holding R p fd w)
    (hpage : memoryPageSize.toNat ≤ (w.kernel.objs obj).length) :
    Prog.Post (takeAccessId obj) w (fun _ w' => Holding R p fd w') E S := by
  refine (getHeader_post hpage).bind fun hd w1 h1 => ?_
  obtain ⟨rfl, rfl⟩ := h1
  exact (setHeader_there_holding h hpage).bind fun _ w2 h2 => Prog.Post.pure h2.1

/-- An open that has read the size of the block. -/
theorem openRest_takes {blockName : CString} {id : UInt64} {access : AccessMode}
    (h : Holding (Covers header memoryPageSize) p file.fd w)
    (hheader : InSpace header memoryPageSize)
    (hpage : memoryPageSize.toNat ≤ (w.kernel.objs file.obj).length)
    (hsize : size = (w.kernel.header file.obj).blockSize) :
    Prog.Post (do
        let memory ← openMapBody ctx os file header size access
        awaitRefcount file.obj
        checkBlockId ctx os file size header memory id
        checkBlockName ctx os file size header memory blockName
        retain file.obj
        let accessId ← takeAccessId file.obj
        return { accessId := accessId, size := size, header := header, memory := memory,
                 hasOwnership := false, accessMode := access, memFd := file } :
          Call SharedMemoryBlock) w
      (fun block w' => os.Accepts blockName id (w.kernel.header file.obj) ∧ block.memFd = file ∧
        block.size = size ∧ block.header = header ∧ os.bodyMmap = .ok block.memory ∧
        InSpace block.memory size ∧ Holding (block.Range size) p file.fd w')
      (fun _ w' => ¬ os.Accepts blockName id (w.kernel.header file.obj) ∧ Undone (fun page =>
        (∃ addr, os.bodyMmap = .ok addr ∧ Covers addr size page) ∨
          Covers header memoryPageSize page) p w')
      (fun why _ => why = .spin ∧ ¬ os.Accepts blockName id (w.kernel.header file.obj)) := by
  subst hsize
  refine (((openMapBody_takes h hheader).also (openMapBody_keeps w)).mono (fun _ _ h => h)
    (fun _ _ h => ⟨fun ha => h.1 ha.body, h.2.mono fun _ hr => .inr hr⟩) fun _ _ h => h).bind
    fun memory w1 h1 => ?_
  obtain ⟨⟨hmemory, hmaps, h1⟩, hk⟩ := h1
  have hregion : ∀ page, Covers header memoryPageSize page ∨
      Covers memory (w.kernel.header file.obj).blockSize page →
      (∃ addr, os.bodyMmap = .ok addr ∧ Covers addr (w.kernel.header file.obj).blockSize page) ∨
        Covers header memoryPageSize page := fun page hr => hr.symm.imp_left fun h => ⟨_, hmemory, h⟩
  have hbody := hmaps.inSpace hmemory
  rw [← hk] at hpage hmaps hbody hregion h1 ⊢
  refine ((awaitRefcount_there_post hpage).mapStop
    fun _ _ h => ⟨h.1.1, fun ha => ha.refcount h.1.2⟩).bind fun _ w2 h2 => ?_
  obtain ⟨rfl, hrefs⟩ := h2
  refine ((checkBlockId_takes h1 hheader hbody hpage).mono (fun _ _ h => h)
    (fun _ _ h => ⟨fun ha => h.1 ha.blockId, h.2.mono hregion⟩) fun _ _ h => h).bind fun _ w3 h3 => ?_
  obtain ⟨hid, rfl⟩ := h3
  refine ((checkBlockName_takes h1 hheader hbody hpage).mono (fun _ _ h => h)
    (fun _ _ h => ⟨fun ha => h.1 ha.blockName, h.2.mono hregion⟩) fun _ _ h => h).bind
    fun _ w4 h4 => ?_
  obtain ⟨hname, rfl⟩ := h4
  refine (setHeader_there_holding h1 hpage).bind fun _ w5 h5 => ?_
  refine (takeAccessId_there_holding h5.1 h5.2).bind fun accessId w6 h6 => Prog.Post.pure ?_
  exact ⟨⟨hmaps, hrefs, hid, hname⟩, rfl, rfl, rfl, hmemory, hbody, h6.congr fun _ => or_comm⟩

/-- **What `shared_memory_block_open` takes, and what it leaves when it fails.** It can wait for a count
that nobody writes, but not for a header it could not map. -/
theorem sharedMemoryBlockOpen_takes {blockName : BlockName} {id : UInt64} {access : AccessMode} :
    Prog.Post (sharedMemoryBlockOpen ctx os blockName id access) w
      (fun block w' => os.Opens blockName id w.kernel block.obj ∧
        block.size = (w.kernel.header block.obj).blockSize ∧ Taken os w.proc block w')
      (fun _ w' => (∀ obj, ¬ os.Opens blockName id w.kernel obj) ∧
        ¬ os.OpensWild (makeBlockNameBasedOnId blockName.chars id) w.kernel ∧
        Undone (os.OpenRegion (makeBlockNameBasedOnId blockName.chars id) w.kernel) w.proc w')
      (fun why _ => (∀ obj, ¬ os.Opens blockName id w.kernel obj) ∧
        (why = .fault ∧ os.shmOpen.isOk = true ∧
            w.kernel.names (makeBlockNameBasedOnId blockName.chars id) ≠ none ∨
          why = .spin ∧ Maps os.headerMmap memoryPageSize)) := by
  unfold sharedMemoryBlockOpen
  generalize hpath : makeBlockNameBasedOnId blockName.chars id = path
  have hunlinked : (os.shmOpen.isOk = true → w.kernel.names path = none) →
      (∀ obj, ¬ os.Opens blockName id w.kernel obj) ∧ ¬ os.OpensWild path w.kernel := by
    intro h
    refine ⟨fun obj hopens => ?_, fun hwild => hwild.2.1 (h hwild.1)⟩
    have hlinked := hopens.linked
    rw [hpath, h hopens.shmOpen] at hlinked
    cases hlinked
  refine ((openLookup_takes.also (openLookup_post fun _ _ => True)).mono (fun _ _ h => h)
    (fun _ _ h => ⟨(hunlinked h.1).1, (hunlinked h.1).2, h.2⟩) fun _ _ h => h).bind fun file w1 h1 => ?_
  obtain ⟨⟨⟨hopen, hlinked⟩, h1⟩, -, hk⟩ := h1
  have hfound : w.kernel.names path ≠ none := by
    rw [hlinked]
    exact Option.some_ne_none _
  -- only the object that was found can be opened
  have hnot : ∀ {P : Prop}, ¬ P → (os.Opens blockName id w1.kernel file.obj → P) →
      ∀ obj, ¬ os.Opens blockName id w.kernel obj := by
    intro P hP hneeds obj hopens
    have hobj : obj = file.obj :=
      Option.some.inj (hopens.linked.symm.trans ((congrArg w.kernel.names hpath).trans hlinked))
    rw [hk] at hneeds
    exact hP (hneeds (hobj ▸ hopens))
  have hfault : ∀ {P : Prop} (_ : World), ¬ P → (os.Opens blockName id w1.kernel file.obj → P) →
      (∀ obj, ¬ os.Opens blockName id w.kernel obj) ∧
        (Stop.fault = .fault ∧ os.shmOpen.isOk = true ∧ w.kernel.names path ≠ none ∨
          Stop.fault = .spin ∧ Maps os.headerMmap memoryPageSize) :=
    fun _ hP hneeds => ⟨hnot hP hneeds, .inl ⟨rfl, hopen, hfound⟩⟩
  refine ((mapHeader_takes h1 fun hrefused w' =>
    hfault w' hrefused fun h => h.header.1).also (mapHeader_keeps w1)).bind
    fun header w2 h2 => ?_
  obtain ⟨⟨hheader, hok, h2⟩, hk2⟩ := h2
  have hspace := hok.inSpace hheader
  have htame : ¬ os.OpensWild path w.kernel := by
    intro hwild
    exact hwild.2.2 hok
  rw [← hk2] at hnot hfault
  refine (readSize_there_post.mapStop ?_).bind fun size w3 h3 => ?_
  · rintro why w' ⟨rfl, hcut⟩
    exact hfault w' hcut fun h => h.header.2
  obtain ⟨rfl, rfl, hpage⟩ := h3
  have h2 : Holding (Covers header memoryPageSize) w.proc file.fd w3 :=
    h2.congr fun _ => iff_of_eq (or_false _)
  refine (openRest_takes h2 hspace hpage rfl).mono ?_ ?_ ?_
  · rintro block w4 ⟨haccepts, rfl, hsize, rfl, hmemory, hbody, h4⟩
    rw [hk2, hk] at hpage haccepts hsize hbody h4
    refine ⟨⟨hopen, ?_, ⟨hok, hpage⟩, haccepts⟩, hsize, hmemory, hheader, ⟨hsize ▸ hbody, hspace⟩,
      hsize ▸ h4⟩
    rw [hpath]
    exact hlinked
  · intro e w4 h4
    refine ⟨hnot h4.1 fun h => h.accepts, htame, h4.2.mono ?_⟩
    intro page hr
    rw [hk2, hk] at hr
    exact ⟨file.obj, hlinked, hr.imp_right fun hc => ⟨header, hheader, hc⟩⟩
  · rintro why w4 ⟨rfl, hdenied⟩
    exact ⟨hnot hdenied fun h => h.accepts, .inr ⟨rfl, hok⟩⟩

end Open

/-! ## What a failed creation leaves of its name -/

section Name

variable {b : Build} {ctx : Context} {os : Os} {blockName : BlockName} {id size : UInt64}
variable {access : AccessMode} {w w' : World}

theorem mapHeader_refused {file : File} (hrefused : ¬ Maps os.headerMmap memoryPageSize) :
    ∃ w', mapHeader os file w = .stop .fault w' := by
  have hpost : Prog.Post (mapHeader os file) w (fun _ _ => False) (fun _ _ => False)
      (fun why _ => why = .fault) := by
    refine mmap_cases_post.bind fun r w1 h1 => ?_
    cases h1 with
    | mapped hmaps hres => exact absurd hmaps hrefused
    | refused hnot => exact Prog.Post.halt rfl
  cases hrun : mapHeader os file w with
  | ret r w' =>
    cases r with
    | ok header => exact (hpost.of_ret hrun).elim
    | error e => exact (hpost.of_error hrun).elim
  | stop why w' =>
    obtain rfl := hpost.of_stop hrun
    exact ⟨w', rfl⟩

/-- A creation that returns an error has not asked for the header, or has got it. -/
theorem create_error_of_refused {e : IpmResult} (hrefused : ¬ Maps os.headerMmap memoryPageSize)
    (h : sharedMemoryBlockCreate b ctx os blockName id size access w = .ret (.error e) w') :
    sharedMemoryBlockCreate b ctx { os with headerMmap := .ok 0 } blockName id size access w =
      .ret (.error e) w' := by
  unfold sharedMemoryBlockCreate at h ⊢
  refine Prog.bind_error_of h fun _ w1 h1 => Prog.bind_error_of h1 fun _ w2 h2 => ?_
  refine Prog.bind_error_of h2 fun file w3 h3 => Prog.bind_error_of h3 fun _ w4 h4 => ?_
  refine Prog.bind_error_of h4 fun memory w5 h5 => ?_
  obtain ⟨w6, hstop⟩ := mapHeader_refused hrefused
  rw [Prog.bind_stop hstop] at h5
  cases h5

/-- **A creation that returns an error leaves no name behind**, if names can be removed. -/
theorem sharedMemoryBlockCreate_error_same (hunlink : os.unlink = none) :
    Prog.Post (sharedMemoryBlockCreate b ctx os blockName id size access) w (fun _ _ => True)
      (fun _ w' => w.kernel.Same w'.kernel) (fun _ _ => True) := by
  refine ⟨fun _ => trivial, ?_, fun _ => trivial⟩
  intro e w' h
  by_cases hok : Maps os.headerMmap memoryPageSize
  · exact ((sharedMemoryBlockCreate_any_post.of_error h).2 ⟨hok, hunlink⟩).same
  · have hgranted := create_error_of_refused hok h
    have hmaps : Maps (.ok 0) memoryPageSize := ⟨by decide, 0, rfl, by decide⟩
    exact ((sharedMemoryBlockCreate_any_post.of_error hgranted).2 ⟨hmaps, hunlink⟩).same

end Name

/-! ## `errno` -/

section Errno

variable {b : Build} {ctx : Context} {os : Os} {blockName : BlockName} {id size : UInt64}
variable {access : AccessMode} {path : CString} {file : File} {header memory : Nat}

/-- A call that sets `errno` does not return: it fails. -/
def SparesErrno {α : Type} (p : Call α) : Prop :=
  ∀ w, Prog.Post p w (fun _ w' => w'.proc.errno = w.proc.errno) (fun _ _ => True) fun _ _ => True

theorem SparesErrno.bind {α β : Type} {p : Call α} {k : α → Call β} (h : SparesErrno p)
    (hk : ∀ a, SparesErrno (k a)) : SparesErrno (p >>= k) := by
  intro w
  refine (h w).bind fun a w1 h1 => ?_
  exact (hk a w1).mapRet fun _ _ h2 => h2.trans h1

theorem SparesErrno.pure {α : Type} (a : α) : SparesErrno (Pure.pure a : Call α) :=
  fun _ => Prog.Post.pure rfl

theorem assert_sparesErrno {c : Bool} : SparesErrno (Prog.assert b c : Call Unit) :=
  fun _ => Prog.Post.assert (fun _ => rfl) fun _ _ => trivial

theorem getHeader_sparesErrno {obj : Nat} : SparesErrno (getHeader obj) := by
  intro w
  exact getHeader_any_post.mono (fun _ _ h => h.1 ▸ rfl) (fun _ _ h => h) fun _ _ _ => trivial

theorem setHeader_sparesErrno {obj : Nat} {f : Header → Header} : SparesErrno (setHeader obj f) := by
  intro w
  rw [Prog.post_iff, setHeader]
  by_cases h : (w.kernel.objs obj).length < memoryPageSize.toNat
  · simp [h]
  · simp [h]

theorem takeAccessId_sparesErrno {obj : Nat} : SparesErrno (takeAccessId obj) :=
  getHeader_sparesErrno.bind fun _ => setHeader_sparesErrno.bind fun _ => .pure _

theorem mmap_sparesErrno {res : Except Failure Nat} {length offset : UInt64} (w : World) :
    Prog.Post (mmap res file length access offset) w
      (fun r w' => r.isSome = true → w'.proc.errno = w.proc.errno) (fun _ _ => True) fun _ _ => True := by
  refine (mmap_cases_post (E := fun _ _ => True) (S := fun _ _ => True)).mono (fun r w' h => ?_)
    (fun _ _ h => h) fun _ _ h => h
  cases h with
  | mapped hmaps hres => exact fun _ => rfl
  | refused hnot => exact nofun

theorem createOpen_sparesErrno : SparesErrno (createOpen ctx os path) := by
  intro w
  refine Prog.Post.bind (Q := fun r w' => r.isSome = true → w'.proc.errno = w.proc.errno) ?_
    fun r w1 h1 => ?_
  · rw [Prog.post_iff, shmOpenExcl]
    cases os.shmOpen with
    | error f => simp
    | ok fd => cases w.kernel.names path <;> simp
  · cases r with
    | some file => exact Prog.Post.pure (h1 rfl)
    | none =>
      refine Prog.Post.last fun e w2 => ?_
      split
      · exact Prog.Post.fail trivial
      · exact Prog.Post.last fun _ _ => Prog.Post.last fun _ _ => Prog.Post.fail trivial

theorem createTruncate_sparesErrno : SparesErrno (createTruncate ctx os path file size) := by
  intro w
  have hdone : ∀ length : UInt64, Prog.Post (ftruncate os file length) w
      (fun done w' => done = true → w'.proc.errno = w.proc.errno) (fun _ _ => True) fun _ _ => True := by
    intro length
    rw [Prog.post_iff, ftruncate]
    by_cases hbig : lengthLimit ≤ length.toNat
    · simp [hbig]
    · cases os.ftruncate <;> simp [hbig]
  refine (hdone _).bind fun done w1 h1 => ?_
  cases done with
  | true => exact Prog.Post.pure (h1 rfl)
  | false =>
    refine Prog.Post.last fun _ _ => Prog.Post.last fun _ _ => ?_
    exact Prog.Post.last fun _ _ => Prog.Post.last fun _ _ => Prog.Post.fail trivial

theorem createMapBody_sparesErrno :
    SparesErrno (createMapBody ctx os path file size access) := by
  intro w
  refine (mmap_sparesErrno w).bind fun r w1 h1 => ?_
  cases r with
  | some addr => exact Prog.Post.pure (h1 rfl)
  | none =>
    refine Prog.Post.last fun _ _ => Prog.Post.last fun _ _ => ?_
    exact Prog.Post.last fun _ _ => Prog.Post.last fun _ _ => Prog.Post.fail trivial

theorem mapHeader_sparesErrno : SparesErrno (mapHeader os file) := by
  intro w
  refine (mmap_sparesErrno w).bind fun r w1 h1 => ?_
  cases r with
  | some addr => exact Prog.Post.pure (h1 rfl)
  | none => exact Prog.Post.halt trivial

theorem createMutex_sparesErrno :
    SparesErrno (createMutex ctx os path file size header memory) := by
  intro w
  refine Prog.Post.bind (Q := fun _ w' => w' = w) (Prog.Post.read rfl) fun e w1 h1 => ?_
  subst h1
  dsimp only
  split
  · refine Prog.Post.last fun _ _ => Prog.Post.last fun _ _ => Prog.Post.last fun _ _ => ?_
    exact Prog.Post.last fun _ _ => Prog.Post.last fun _ _ => Prog.Post.fail trivial
  · exact setHeader_sparesErrno w1

/-- A creation that succeeds has set no `errno`. -/
theorem sharedMemoryBlockCreate_sparesErrno :
    SparesErrno (sharedMemoryBlockCreate b ctx os blockName id size access) := by
  unfold sharedMemoryBlockCreate
  refine assert_sparesErrno.bind fun _ => assert_sparesErrno.bind fun _ => ?_
  refine createOpen_sparesErrno.bind fun file => createTruncate_sparesErrno.bind fun _ => ?_
  refine createMapBody_sparesErrno.bind fun memory => mapHeader_sparesErrno.bind fun header => ?_
  refine setHeader_sparesErrno.bind fun _ => setHeader_sparesErrno.bind fun _ => ?_
  refine setHeader_sparesErrno.bind fun _ => createMutex_sparesErrno.bind fun _ => ?_
  refine setHeader_sparesErrno.bind fun _ => takeAccessId_sparesErrno.bind fun _ => ?_
  exact setHeader_sparesErrno.bind fun _ => .pure _

end Errno

/-! ## Giving a block back -/

section Close

variable {b : Build} {ctx : Context} {os : Os} {block : SharedMemoryBlock} {w : World}
variable {S : Stop → World → Prop}

theorem unmapBlock_keepsCounts : KeepsCounts (unmapBlock os block) :=
  getHeader_keepsCounts.bind fun _ => munmap_keepsCounts.bind fun _ => munmap_keepsCounts

theorem unlinkBlock_keepsCounts : KeepsCounts (unlinkBlock ctx os block) := by
  refine getHeader_keepsCounts.bind fun h => munmap_keepsCounts.bind fun _ => ?_
  refine munmap_keepsCounts.bind fun _ => shmUnlink_keepsCounts.bind fun done => ?_
  cases done with
  | true => exact .pure _
  | false => exact ipmError_keepsCounts.bind fun _ => errno_keepsCounts.bind fun _ => .fail _

theorem releaseRef_keepsCounts {obj : Nat} : KeepsCounts (releaseRef obj) :=
  getHeader_keepsCounts.bind fun _ => setHeader_keepsCounts.bind fun _ => .pure _

/-- A close gives the descriptor back, even one that fails. -/
theorem sharedMemoryBlockClose_counts {callback : Call Unit} (hcallback : KeepsCounts callback)
    (hown : block.hasOwnership = false) :
    Prog.Post (sharedMemoryBlockClose b ctx os block callback) w
      (fun _ w' => w'.counts = (w.proc.fds.erase block.memFd.fd, w.proc.allocs))
      (fun _ w' => w'.counts = (w.proc.fds.erase block.memFd.fd, w.proc.allocs))
      (fun _ _ => True) := by
  unfold sharedMemoryBlockClose
  refine (Prog.Post.assert_holds fun _ => by simp [hown]).bind fun _ w₀ h₀ => ?_
  subst h₀
  refine closeFd_closes.bind fun _ w1 h1 => ?_
  have hrest : ∀ refs : UInt32, KeepsCounts (if refs = 1 then do
      callback
      destroyMutex block.obj
      unlinkBlock ctx os block
    else unmapBlock os block) := by
    intro refs
    split
    · exact hcallback.bind fun _ => setHeader_keepsCounts.bind fun _ => unlinkBlock_keepsCounts
    · exact unmapBlock_keepsCounts
  exact ((releaseRef_keepsCounts.bind hrest) w1).mono (fun _ _ h => h.trans h1.2)
    (fun _ _ h => h.trans h1.2) fun _ _ _ => trivial

/-- What was held is given back, and with it what was undone in between. -/
theorem Holding.undone_after {R R' : Nat → Prop} {p : Proc} {fd : Nat} {w' w'' : World}
    (h : Holding R p fd w) (hundone : Undone R' w.proc w') (hunmapped : Unmapped R w' w'')
    (hcounts : w''.counts = (w'.proc.fds.erase fd, w'.proc.allocs)) :
    Undone (fun page => R page ∨ R' page) p w'' := by
  obtain ⟨hfds, hallocs⟩ := Prod.mk.inj h.counts
  obtain ⟨hfds', hallocs'⟩ := Prod.mk.inj hundone.counts
  constructor
  · rw [hcounts, hfds', hallocs', hfds, hallocs, List.erase_cons_head]
  · intro page
    by_cases hr : R page
    · exact .inr ⟨.inl hr, hunmapped.gone page hr⟩
    · rw [hunmapped.kept page hr]
      rcases hundone.pages page with hsame | ⟨hr', hnone⟩
      · exact .inl (hsame.trans (h.pages page hr))
      · exact .inr ⟨.inr hr', hnone⟩

end Close

end Ipm
