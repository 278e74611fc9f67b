import Ipm.Block.Spec

/-!
# What a process sees of a block

A handle says where its block is mapped, how much of it and how. `Proc.Shows` is what that means in
the address space: the pages at the handle's address are those of the block's body, in order, and the
mapping goes no further. `shared_memory_block_create` and `shared_memory_block_open` return handles of
which it holds, provided `mmap` keeps to its word about addresses.
-/

set_option autoImplicit false

namespace Ipm

open Lib

/-- The pages a mapping of `length` bytes takes. -/
def pageCount (length : UInt64) : Nat :=
  (length.toNat + memoryPageSize.toNat - 1) / memoryPageSize.toNat

/-- There is a mapping at `addr` of exactly `length` bytes of the body of `obj`: it shows the pages
after the header page, one after another, and goes no further. -/
structure Proc.Shows (p : Proc) (addr : Nat) (length : UInt64) (obj : Nat) (access : AccessMode) :
    Prop where
  pages : ∀ page, Covers addr length page →
    p.pages page = some ⟨obj, 1 + (page - addr / memoryPageSize.toNat), access⟩
  ends : p.pages (addr / memoryPageSize.toNat + pageCount length) ≠
    some ⟨obj, 1 + pageCount length, access⟩

section Shows

variable {p p' : Proc} {addr obj : Nat} {length : UInt64} {access : AccessMode}

theorem not_covers_null (page : Nat) : ¬ Covers 0 0 page := by
  intro h
  exact absurd h.2 (Nat.not_lt_zero _)

theorem setPages_congr {what : Nat → Option Page} (h : p'.pages = p.pages) :
    (p'.setPages addr length what).pages = (p.setPages addr length what).pages := by
  simp only [Proc.setPages, h]

/-- Of two mappings apart from each other either can be made first. -/
theorem setPages_comm {addr' : Nat} {length' : UInt64} {what what' : Nat → Option Page}
    (hapart : ∀ page, ¬ (Covers addr length page ∧ Covers addr' length' page)) :
    ((p.setPages addr length what).setPages addr' length' what').pages =
      ((p.setPages addr' length' what').setPages addr length what).pages := by
  funext page
  simp only [Proc.setPages]
  by_cases hleft : Covers addr length page
  · rw [if_neg fun hright => hapart page ⟨hleft, hright⟩, if_pos hleft, if_pos hleft]
  · rw [if_neg hleft, if_neg hleft]

/-- A mapping none of whose pages has changed; others may have gone. -/
theorem Proc.Shows.keep (h : p.Shows addr length obj access)
    (hin : ∀ page, Covers addr length page → p'.pages page = p.pages page)
    (hgone : ∀ page, p'.pages page = p.pages page ∨ p'.pages page = none) :
    p'.Shows addr length obj access := by
  refine ⟨fun page hpage => (hin page hpage).trans (h.pages page hpage), ?_⟩
  rcases hgone (addr / memoryPageSize.toNat + pageCount length) with hsame | hnone
  · rw [hsame]
    exact h.ends
  · rw [hnone]
    exact nofun

theorem Proc.Shows.same (h : p.Shows addr length obj access) (hpages : p'.pages = p.pages) :
    p'.Shows addr length obj access :=
  h.keep (fun page _ => congrFun hpages page) fun page => .inl (congrFun hpages page)

theorem pageSize_eq : memoryPageSize.toNat = 4096 := rfl

/-- An aligned mapping has the pages up to its end, and no more. -/
theorem covers_iff (haligned : memoryPageSize.toNat ∣ addr) (page : Nat) :
    Covers addr length page ↔ addr / memoryPageSize.toNat ≤ page ∧
      page < addr / memoryPageSize.toNat + pageCount length := by
  obtain ⟨first, rfl⟩ := haligned
  rw [Covers, pageCount, pageSize_eq]
  omega

/-- A mapping stays as it is when a header page is mapped elsewhere. -/
theorem Proc.Shows.mapHeader {header : Nat} {file : File} (h : p.Shows addr length obj access)
    (haligned : memoryPageSize.toNat ∣ header)
    (hapart : ∀ page, ¬ (Covers addr length page ∧ Covers header memoryPageSize page)) :
    (p.setPages header memoryPageSize (file.pages .readWrite 0)).Shows addr length obj access := by
  refine ⟨fun page hpage => ?_, ?_⟩
  · show (if _ then _ else p.pages page) = _
    rw [if_neg fun hheader => hapart page ⟨hpage, hheader⟩]
    exact h.pages page hpage
  · show (if _ then _ else p.pages _) ≠ _
    split
    · rename_i hheader
      -- the header page is page 0 of its object
      rw [covers_iff haligned] at hheader
      have hone : pageCount memoryPageSize = 1 := rfl
      have hindex : (0 / memoryPageSize : UInt64).toNat = 0 := rfl
      simp only [File.pages, ne_eq, Option.some.injEq, Page.mk.injEq, not_and]
      omega
    · exact h.ends

/-- A body that has just been mapped. -/
theorem shows_setPages {file : File} (haligned : memoryPageSize.toNat ∣ addr)
    (hends : p.pages (addr / memoryPageSize.toNat + pageCount length) ≠
      some ⟨file.obj, 1 + pageCount length, access⟩) :
    (p.setPages addr length (file.pages access memoryPageSize)).Shows addr length file.obj access := by
  refine ⟨fun page hpage => if_pos hpage, ?_⟩
  show (if _ then _ else p.pages _) ≠ _
  rw [if_neg fun hpage => Nat.lt_irrefl _ ((covers_iff haligned _).mp hpage).2]
  exact hends

end Shows

/-! ## Calls that map nothing -/

section KeepsPages

variable {b : Build} {ctx : Context} {os : Os} {file : File} {path : CString} {w : World}

/-- A call that leaves the address space alone. -/
abbrev KeepsPages {α : Type} (p : Call α) : Prop := Prog.Keeps (fun w => w.proc.pages) p

/-- A call that leaves it alone when it returns; what it does on its way to an error is its own
business. -/
def ReturnsPages {α : Type} (p : Call α) : Prop :=
  ∀ w, Prog.Post p w (fun _ w' => w'.proc.pages = w.proc.pages) (fun _ _ => True) fun _ _ => True

theorem KeepsPages.returns {α : Type} {p : Call α} (h : KeepsPages p) : ReturnsPages p := by
  intro w
  exact (h w).mono (fun _ _ h => h) (fun _ _ _ => trivial) fun _ _ _ => trivial

theorem ReturnsPages.bind {α β : Type} {p : Call α} {k : α → Call β} (h : ReturnsPages p)
    (hk : ∀ a, ReturnsPages (k a)) : ReturnsPages (p >>= k) := by
  intro w
  refine (h w).bind fun a w1 h1 => ?_
  exact (hk a w1).mapRet fun _ _ h2 => h2.trans h1

/-- One call of a sequence, with `pages` what the process has mapped. -/
theorem ReturnsPages.next {α β : Type} {p : Call α} {k : α → Call β} {pages : Nat → Option Page}
    {R : β → World → Prop} (h : ReturnsPages p) (hw : w.proc.pages = pages)
    (hk : ∀ a w', w'.proc.pages = pages →
      Prog.Post (k a) w' R (fun _ _ => True) fun _ _ => True) :
    Prog.Post (p >>= k) w R (fun _ _ => True) fun _ _ => True :=
  (h w).bind fun a w' h' => hk a w' (h'.trans hw)

theorem ipmError_keepsPages : KeepsPages (ipmError ctx) := fun _ => Prog.post_iff.mpr rfl

theorem errno_keepsPages : KeepsPages errno := fun _ => Prog.post_iff.mpr rfl

theorem getHeader_keepsPages {obj : Nat} : KeepsPages (getHeader obj) := by
  intro w
  exact getHeader_any_post.mono (fun _ _ h => h.1 ▸ rfl) (fun _ _ h => h) fun _ _ h => h ▸ rfl

theorem setHeader_keepsPages {obj : Nat} {f : Header → Header} : KeepsPages (setHeader obj f) := by
  intro w
  rw [Prog.post_iff, setHeader]
  by_cases h : (w.kernel.objs obj).length < memoryPageSize.toNat
  · simp [h]
  · simp [h]

theorem takeAccessId_keepsPages {obj : Nat} : KeepsPages (takeAccessId obj) :=
  getHeader_keepsPages.bind fun _ => setHeader_keepsPages.bind fun _ => .pure _

theorem ftruncate_keepsPages {length : UInt64} : KeepsPages (ftruncate os file length) := by
  intro w
  rw [Prog.post_iff, ftruncate]
  by_cases hbig : lengthLimit ≤ length.toNat
  · simp [hbig, World.setErrno]
  · cases os.ftruncate with
    | some f => simp [hbig, World.setErrno]
    | none => simp [hbig]

theorem shmOpenExcl_keepsPages : KeepsPages (shmOpenExcl os path) := by
  intro w
  rw [Prog.post_iff, shmOpenExcl]
  cases os.shmOpen with
  | error f => rfl
  | ok fd => cases w.kernel.names path <;> rfl

theorem shmOpen_keepsPages : KeepsPages (shmOpen os path) := by
  intro w
  rw [Prog.post_iff, shmOpen]
  cases os.shmOpen with
  | error f => rfl
  | ok fd => cases w.kernel.names path <;> rfl

/-- Both lookups go the same way. -/
theorem lookup_keepsPages {look : Call (Option File)} {missing : IpmResult}
    (hlook : KeepsPages look) :
    KeepsPages (do
      match ← look with
      | some file => return file
      | none =>
        if (← errno) = .EEXIST then Prog.fail .errExists
        else
          ipmError ctx
          Prog.fail (lookupError missing (← errno))) := by
  refine hlook.bind fun r => ?_
  cases r with
  | some file => exact .pure _
  | none =>
    refine errno_keepsPages.bind fun e => ?_
    split
    · exact .fail _
    · exact ipmError_keepsPages.bind fun _ => errno_keepsPages.bind fun _ => .fail _

theorem createOpen_keepsPages : KeepsPages (createOpen ctx os path) :=
  lookup_keepsPages shmOpenExcl_keepsPages

theorem openLookup_keepsPages : KeepsPages (openLookup ctx os path) :=
  lookup_keepsPages shmOpen_keepsPages

/-- A call that only ever bails out. -/
def NeverReturns {α : Type} (p : Call α) : Prop :=
  ∀ w, Prog.Post p w (fun _ _ => False) (fun _ _ => True) fun _ _ => True

theorem NeverReturns.fail {α : Type} (res : IpmResult) :
    NeverReturns (Prog.fail res : Call α) := fun _ => Prog.Post.fail trivial

/-- What comes before makes no difference. -/
theorem NeverReturns.after {α β : Type} {p : Call α} {k : α → Call β}
    (hk : ∀ a, NeverReturns (k a)) : NeverReturns (p >>= k) := by
  intro w
  exact Prog.Post.last hk

theorem NeverReturns.returns {α : Type} {p : Call α} (h : NeverReturns p) : ReturnsPages p := by
  intro w
  exact (h w).mapRet fun _ _ h => h.elim

theorem createTruncate_returns {size : UInt64} :
    ReturnsPages (createTruncate ctx os path file size) := by
  refine ftruncate_keepsPages.returns.bind fun done => ?_
  cases done with
  | true => exact KeepsPages.returns (.pure _)
  | false =>
    apply NeverReturns.returns
    exact .after fun _ => .after fun _ => .after fun _ => .after fun _ => .fail _

theorem createMutex_returns {size : UInt64} {header memory : Nat} :
    ReturnsPages (createMutex ctx os path file size header memory) := by
  refine errno_keepsPages.returns.bind fun e => ?_
  dsimp only
  split
  · apply NeverReturns.returns
    exact .after fun _ => .after fun _ => .after fun _ => .after fun _ => .after fun _ => .fail _
  · exact setHeader_keepsPages.returns

theorem openMismatch_never {size : UInt64} {header memory : Nat} :
    NeverReturns (openMismatch ctx os file size header memory) :=
  .after fun _ => .after fun _ => .after fun _ => .after fun _ => .fail _

theorem checkBlockId_returns {size id : UInt64} {header memory : Nat} :
    ReturnsPages (checkBlockId ctx os file size header memory id) := by
  refine getHeader_keepsPages.returns.bind fun h => ?_
  split
  · exact openMismatch_never.returns
  · exact KeepsPages.returns (.pure _)

theorem checkBlockName_returns {size : UInt64} {header memory : Nat} {blockName : CString} :
    ReturnsPages (checkBlockName ctx os file size header memory blockName) := by
  refine getHeader_keepsPages.returns.bind fun h => ?_
  split
  · exact KeepsPages.returns (.pure _)
  · exact openMismatch_never.returns

theorem awaitRefcount_keepsPages {obj : Nat} : KeepsPages (awaitRefcount obj) := by
  refine getHeader_keepsPages.bind fun h => ?_
  split
  · exact .halt _
  · exact .pure _

/-! ## Calls that map -/

theorem mmap_maps_post {res : Except Failure Nat} {length offset : UInt64} {access : AccessMode}
    {E : IpmResult → World → Prop} {S : Stop → World → Prop} :
    Prog.Post (mmap res file length access offset) w
      (fun r w' => ∀ addr ∈ r, res = .ok addr ∧
        w'.proc.pages = (w.proc.setPages addr length (file.pages access offset)).pages) E S := by
  refine mmap_cases_post.mapRet fun r w' h => ?_
  cases h with
  | mapped _ hres =>
    rintro addr' ⟨⟩
    exact ⟨hres, rfl⟩
  | refused hnot => exact nofun

/-- Either way of mapping a body. -/
theorem mapBody_maps_post {size : UInt64} {access : AccessMode} {undo : Call Nat}
    (hundo : NeverReturns undo) :
    Prog.Post (do
        match ← mmap os.bodyMmap file size access memoryPageSize with
        | some addr => return addr
        | none => undo : Call Nat) w
      (fun addr w' => os.bodyMmap = .ok addr ∧
        w'.proc.pages = (w.proc.setPages addr size (file.pages access memoryPageSize)).pages)
      (fun _ _ => True) fun _ _ => True := by
  refine mmap_maps_post.bind fun r w1 h1 => ?_
  cases r with
  | some addr => exact Prog.Post.pure (h1 addr rfl)
  | none => exact (hundo w1).mapRet fun _ _ h => h.elim

theorem mapHeader_maps_post {E : IpmResult → World → Prop} :
    Prog.Post (mapHeader os file) w
      (fun addr w' => os.headerMmap = .ok addr ∧
        w'.proc.pages = (w.proc.setPages addr memoryPageSize (file.pages .readWrite 0)).pages)
      E fun _ _ => True := by
  refine mmap_maps_post.bind fun r w1 h1 => ?_
  cases r with
  | some addr => exact Prog.Post.pure (h1 addr rfl)
  | none => exact Prog.Post.halt trivial

/-- What `mmap` promises of the addresses it picks for a block of `size` bytes: they begin pages, the
body is not at `NULL`, and nothing is put where something is. That the page after the body does not
continue it is part of that, since a mapping is made and unmade as a whole. -/
structure Os.Places (os : Os) (p : Proc) (size : UInt64) : Prop where
  ne_null : ∀ addr, os.bodyMmap = .ok addr → addr ≠ 0
  body : ∀ addr, os.bodyMmap = .ok addr → memoryPageSize.toNat ∣ addr
  header : ∀ addr, os.headerMmap = .ok addr → memoryPageSize.toNat ∣ addr
  apart : ∀ body header, os.bodyMmap = .ok body → os.headerMmap = .ok header →
    ∀ page, ¬ (Covers body size page ∧ Covers header memoryPageSize page)
  ends : ∀ addr, os.bodyMmap = .ok addr → ∀ obj access,
    p.pages (addr / memoryPageSize.toNat + pageCount size) ≠
      some ⟨obj, 1 + pageCount size, access⟩

/-- A handle that points at the whole of what it says is mapped. -/
def SharedMemoryBlock.Mapped (block : SharedMemoryBlock) (p : Proc) : Prop :=
  block.memory ≠ 0 ∧ p.Shows block.memory block.size block.obj block.accessMode

/-- What `shared_memory_block_create` and `shared_memory_block_open` return, with the body and the
header mapped. -/
theorem mapped_of_setPages {block : SharedMemoryBlock} {p p' : Proc}
    (hbody : os.bodyMmap = .ok block.memory) (hheader : os.headerMmap = .ok block.header)
    (hpages : p'.pages = ((p.setPages block.memory block.size
      (block.memFd.pages block.accessMode memoryPageSize)).setPages block.header memoryPageSize
        (block.memFd.pages .readWrite 0)).pages) (hplaces : os.Places p block.size) :
    block.Mapped p' := by
  have hshows := shows_setPages (hplaces.body _ hbody)
    (hplaces.ends _ hbody block.memFd.obj block.accessMode)
  refine ⟨hplaces.ne_null _ hbody, Proc.Shows.same ?_ hpages⟩
  exact hshows.mapHeader (hplaces.header _ hheader) (hplaces.apart _ _ hbody hheader)

/-- **A block that was created is mapped.** -/
theorem sharedMemoryBlockCreate_mapped_post {blockName : BlockName} {id size : UInt64}
    {access : AccessMode} :
    Prog.Post (sharedMemoryBlockCreate b ctx os blockName id size access) w
      (fun block w' => os.Places w.proc block.size → block.Mapped w'.proc)
      (fun _ _ => True) fun _ _ => True := by
  refine ReturnsPages.next (KeepsPages.returns (.assert _ _)) rfl fun _ w1 h1 => ?_
  refine ReturnsPages.next (KeepsPages.returns (.assert _ _)) h1 fun _ w2 h2 => ?_
  refine createOpen_keepsPages.returns.next h2 fun file w3 h3 => ?_
  refine createTruncate_returns.next h3 fun _ w4 h4 => ?_
  refine (mapBody_maps_post (.after fun _ => .after fun _ => .after fun _ => .after fun _ =>
    .fail _)).bind fun memory w5 h5 => mapHeader_maps_post.bind fun header w6 h6 => ?_
  have hpages : w6.proc.pages = ((w.proc.setPages memory size
      (file.pages access memoryPageSize)).setPages header memoryPageSize
        (file.pages .readWrite 0)).pages := by
    rw [h6.2, setPages_congr h5.2, setPages_congr (setPages_congr h4)]
  refine setHeader_keepsPages.returns.next hpages fun _ w7 h7 => ?_
  refine setHeader_keepsPages.returns.next h7 fun _ w8 h8 => ?_
  refine setHeader_keepsPages.returns.next h8 fun _ w9 h9 => ?_
  refine createMutex_returns.next h9 fun _ w10 h10 => ?_
  refine setHeader_keepsPages.returns.next h10 fun _ w11 h11 => ?_
  refine takeAccessId_keepsPages.returns.next h11 fun accessId w12 h12 => ?_
  refine setHeader_keepsPages.returns.next h12 fun _ w13 h13 => ?_
  exact Prog.Post.pure (mapped_of_setPages h5.1 h6.1 h13)

/-- **A block that was opened is mapped.** -/
theorem sharedMemoryBlockOpen_mapped_post {blockName : BlockName} {id : UInt64}
    {access : AccessMode} :
    Prog.Post (sharedMemoryBlockOpen ctx os blockName id access) w
      (fun block w' => os.Places w.proc block.size → block.Mapped w'.proc)
      (fun _ _ => True) fun _ _ => True := by
  refine openLookup_keepsPages.returns.next rfl fun file w1 h1 => ?_
  refine mapHeader_maps_post.bind fun header w2 h2 => ?_
  refine ReturnsPages.next (KeepsPages.returns (getHeader_keepsPages.bind fun _ => .pure _)) rfl
    fun size w3 h3 => ?_
  refine (mapBody_maps_post (.after fun _ => .after fun _ => .after fun _ => .after fun _ =>
    .fail _)).bind fun memory w4 h4 => ?_
  refine awaitRefcount_keepsPages.returns.next rfl fun _ w5 h5 => ?_
  refine checkBlockId_returns.next h5 fun _ w6 h6 => ?_
  refine checkBlockName_returns.next h6 fun _ w7 h7 => ?_
  refine setHeader_keepsPages.returns.next h7 fun _ w8 h8 => ?_
  refine takeAccessId_keepsPages.returns.next h8 fun accessId w9 h9 => Prog.Post.pure ?_
  intro hplaces
  refine mapped_of_setPages h4.1 h2.1 ?_ hplaces
  show w9.proc.pages = _
  -- the header went first here, and it makes no difference
  rw [setPages_comm (hplaces.apart _ _ h4.1 h2.1), h9, h4.2, setPages_congr h3, setPages_congr h2.2,
    setPages_congr (setPages_congr h1)]

end KeepsPages

end Ipm
