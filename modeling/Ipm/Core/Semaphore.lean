import Mathlib.Algebra.Order.BigOperators.Group.List
import Mathlib.Algebra.GroupWithZero.Nat
import Mathlib.Algebra.Order.Group.Nat
import Ipm.Core.Common
import Ipm.Lib.Reach
import Ipm.Lib.Semaphore
import Ipm.Lib.Threads

/-!
# The semaphore wrappers of `ipm_platform.c`

Nothing in the library calls them so far; they are there for whoever needs one. `ipm_semaphore_wait` says
when it has failed, an interrupted `sem_wait` included, and has taken no permit then.
`ipm_semaphore_post` says nothing, so a post that `sem_post` refuses is a permit lost, and its caller does
not know.

None is lost if whoever posts has waited first. Then the permits are always all there, free or in
somebody's hands (`permits_of_owned`), and with one permit the semaphore is a lock.
-/

set_option autoImplicit false

namespace Ipm

open Lib

/-- `SEM_VALUE_MAX`. -/
def semValueMax : Nat := 2 ^ 31 - 1

/-- `ipm_sem`. -/
abbrev IpmSem : Type := Semaphore semValueMax

/-- `ipm_semaphore_init`; `refused` is an error of `sem_init` for another reason than the value. -/
def ipmSemaphoreInit (refused : Option Errno) (val : UInt32) : IpmResult × Option IpmSem :=
  if h : refused = none ∧ val.toNat ≤ semValueMax then (.success, some ⟨val.toNat, h.2⟩)
  else (.errNoSem, none)

/-- `ipm_semaphore_destroy`. -/
def ipmSemaphoreDestroy (_ : IpmSem) : Option IpmSem := none

/-- `ipm_semaphore_post`. -/
def ipmSemaphorePost (sem : IpmSem) : IpmSem := sem.post.getD sem

/-- `ipm_semaphore_wait`; `refused` is an error of `sem_wait`, `EINTR` for one. `none` is a call that does
not return for now. -/
def ipmSemaphoreWait (refused : Option Errno) (sem : IpmSem) : Option (IpmResult × IpmSem) :=
  match refused with
  | some _ => some (.errNoSemWait, sem)
  | none => sem.take.map fun sem => (.success, sem)

/-- `ipm_semaphore_count`; it returns -1 as an `unsigned` when `sem_getvalue` fails. -/
def ipmSemaphoreCount (refused : Option Errno) (sem : IpmSem) : UInt32 :=
  match refused with
  | some _ => -1
  | none => .ofNat sem.value

theorem toNat_ipmSemaphoreCount (sem : IpmSem) : (ipmSemaphoreCount none sem).toNat = sem.value := by
  have hlt : sem.value < 2 ^ 32 := Nat.lt_of_le_of_lt sem.value_le (by decide)
  exact UInt32.toNat_ofNat_of_lt' hlt

theorem value_of_init {refused : Option Errno} {val : UInt32} {sem : IpmSem}
    (h : ipmSemaphoreInit refused val = (.success, some sem)) : sem.value = val.toNat := by
  rw [ipmSemaphoreInit] at h
  split_ifs at h
  · rw [← Option.some.inj (Prod.mk.inj h).2]
  · cases (Prod.mk.inj h).1

theorem ipmSemaphoreWait_cases {refused : Option Errno} {sem sem' : IpmSem} {res : IpmResult}
    (h : ipmSemaphoreWait refused sem = some (res, sem')) :
    res = .success ∧ sem'.value + 1 = sem.value ∨ res = .errNoSemWait ∧ sem' = sem := by
  cases refused with
  | some code =>
    obtain ⟨rfl, rfl⟩ := Prod.mk.inj (Option.some.inj h)
    exact .inr ⟨rfl, rfl⟩
  | none =>
    obtain ⟨taken, htake, heq⟩ := Option.map_eq_some_iff.mp h
    obtain ⟨rfl, rfl⟩ := Prod.mk.inj heq
    exact .inl ⟨rfl, Semaphore.value_take htake⟩

theorem value_ipmSemaphorePost (sem : IpmSem) :
    (ipmSemaphorePost sem).value = sem.value + (if sem.post.isSome then 1 else 0) := by
  cases h : sem.post with
  | none => simp [ipmSemaphorePost, h]
  | some sem' => simp [ipmSemaphorePost, h, Semaphore.value_post h]

/-! ## Threads with a semaphore -/

/-- What a thread has done so far: the waits that returned `IPM_RESULT_SUCCESS`, and the posts. -/
structure SemUser where
  taken : Nat
  posted : Nat

def SemUser.idle : SemUser := ⟨0, 0⟩

/-- The permits in its hands. -/
def SemUser.held (u : SemUser) : Nat := u.taken - u.posted

/-- A semaphore and its users. -/
structure SemSys where
  sem : Option IpmSem
  users : List SemUser
  /-- Posts that `sem_post` refused. -/
  lost : Nat

inductive SemEvent where
  | wait (i : Nat) (refused : Option Errno)
  | post (i : Nat)
  | destroy

namespace SemSys

/-- `n` threads, and a semaphore that `ipm_semaphore_init` has made. -/
def start (sem : IpmSem) (n : Nat) : SemSys := ⟨some sem, List.replicate n .idle, 0⟩

/-- Thread `i` has waited. -/
def waited (s : SemSys) (i : Nat) (u : SemUser) (r : IpmResult × IpmSem) : SemSys :=
  { s with sem := some r.2
           users := s.users.set i (if r.1 = .success then { u with taken := u.taken + 1 } else u) }

/-- Thread `i` has posted. -/
def posted (s : SemSys) (i : Nat) (u : SemUser) (sem : IpmSem) : SemSys :=
  { sem := some (ipmSemaphorePost sem)
    users := s.users.set i { u with posted := u.posted + 1 }
    lost := if sem.post.isSome then s.lost else s.lost + 1 }

def step (s : SemSys) : SemEvent → Option SemSys
  | .wait i refused => s.sem.bind fun sem => (s.users[i]?).bind fun u =>
      (ipmSemaphoreWait refused sem).map (s.waited i u)
  | .post i => s.sem.bind fun sem => (s.users[i]?).map fun u => s.posted i u sem
  | .destroy => s.sem.map fun sem => { s with sem := ipmSemaphoreDestroy sem }

/-- The permits in anybody's hands. -/
def held (s : SemSys) : Nat := (s.users.map SemUser.held).sum

def taken (s : SemSys) : Nat := (s.users.map SemUser.taken).sum

def posts (s : SemSys) : Nat := (s.users.map SemUser.posted).sum

/-- Every permit taken or posted is accounted for. -/
def Conserved (val : Nat) (s : SemSys) : Prop :=
  ∀ sem ∈ s.sem, sem.value + s.taken + s.lost = val + s.posts

/-- Who posts has a permit. -/
def Owned (s : SemSys) : SemEvent → Prop
  | .post i => ∀ u ∈ s.users[i]?, u.posted < u.taken
  | _ => True

variable {s s' : SemSys} {a : SemEvent} {val i : Nat} {u : SemUser} {sem sem' : IpmSem}
variable {res : IpmResult}

theorem conserved_start {n : Nat} : Conserved sem.value (start sem n) := by
  rintro _ ⟨⟩
  have hidle : ∀ f : SemUser → Nat, f .idle = 0 → ((start sem n).users.map f).sum = 0 := by
    intro f hf
    simp [start, hf]
  show sem.value + taken _ + 0 = _ + posts _
  rw [taken, posts, hidle _ rfl, hidle _ rfl]

theorem Conserved.waited {refused : Option Errno} (h : Conserved val s) (hsem : s.sem = some sem)
    (hu : s.users[i]? = some u) (hwait : ipmSemaphoreWait refused sem = some (res, sem')) :
    Conserved val (s.waited i u (res, sem')) := by
  rintro _ ⟨⟩
  have hval : sem.value + s.taken + s.lost = val + s.posts := h sem hsem
  rcases ipmSemaphoreWait_cases hwait with ⟨rfl, htook⟩ | ⟨rfl, rfl⟩
  · have htaken : (s.waited i u (.success, sem')).taken = s.taken + 1 := by
      have hset := sum_map_set_add SemUser.taken hu { u with taken := u.taken + 1 }
      show ((s.users.set i { u with taken := u.taken + 1 }).map SemUser.taken).sum = _
      rw [SemSys.taken]
      dsimp only at hset
      omega
    have hposts : (s.waited i u (.success, sem')).posts = s.posts :=
      Nat.add_right_cancel (sum_map_set_add SemUser.posted hu { u with taken := u.taken + 1 })
    rw [htaken, hposts]
    show sem'.value + (s.taken + 1) + s.lost = _
    omega
  · have husers : (s.waited i u (.errNoSemWait, sem')).users = s.users := set_getElem?_self hu
    rw [SemSys.taken, SemSys.posts, husers]
    exact hval

theorem Conserved.posted (h : Conserved val s) (hsem : s.sem = some sem) (hu : s.users[i]? = some u) :
    Conserved val (s.posted i u sem) := by
  rintro _ ⟨⟩
  have hval : sem.value + s.taken + s.lost = val + s.posts := h sem hsem
  have htaken : (s.posted i u sem).taken = s.taken :=
    Nat.add_right_cancel (sum_map_set_add SemUser.taken hu { u with posted := u.posted + 1 })
  have hposts : (s.posted i u sem).posts = s.posts + 1 := by
    have hset := sum_map_set_add SemUser.posted hu { u with posted := u.posted + 1 }
    show ((s.users.set i { u with posted := u.posted + 1 }).map SemUser.posted).sum = _
    rw [SemSys.posts]
    dsimp only at hset
    omega
  rw [value_ipmSemaphorePost, htaken, hposts, SemSys.posted]
  dsimp only
  split <;> omega

/-- What a step can do. -/
theorem step_cases (hs : step s a = some s') :
    (∃ i refused sem u r, a = .wait i refused ∧ s.sem = some sem ∧ s.users[i]? = some u ∧
      ipmSemaphoreWait refused sem = some r ∧ s' = s.waited i u r) ∨
    (∃ i sem u, a = .post i ∧ s.sem = some sem ∧ s.users[i]? = some u ∧ s' = s.posted i u sem) ∨
    a = .destroy ∧ s' = { s with sem := none } := by
  cases a with
  | wait i refused =>
    obtain ⟨sem, hsem, hs⟩ := Option.bind_eq_some_iff.mp hs
    obtain ⟨u, hu, hs⟩ := Option.bind_eq_some_iff.mp hs
    obtain ⟨r, hr, rfl⟩ := Option.map_eq_some_iff.mp hs
    exact .inl ⟨i, refused, sem, u, r, rfl, hsem, hu, hr, rfl⟩
  | post i =>
    obtain ⟨sem, hsem, hs⟩ := Option.bind_eq_some_iff.mp hs
    obtain ⟨u, hu, rfl⟩ := Option.map_eq_some_iff.mp hs
    exact .inr (.inl ⟨i, sem, u, rfl, hsem, hu, rfl⟩)
  | destroy =>
    obtain ⟨sem, -, rfl⟩ := Option.map_eq_some_iff.mp hs
    exact .inr (.inr ⟨rfl, rfl⟩)

theorem Conserved.step (h : Conserved val s) (hs : SemSys.step s a = some s') : Conserved val s' := by
  rcases step_cases hs with ⟨i, refused, sem, u, r, -, hsem, hu, hr, rfl⟩ | ⟨i, sem, u, -, hsem, hu, rfl⟩ |
    ⟨-, rfl⟩
  · exact h.waited hsem hu hr
  · exact h.posted hsem hu
  · exact nofun

/-- In a run of owners nobody posts more than it took, and no post is refused. -/
structure OwnedOk (val : Nat) (s : SemSys) : Prop where
  conserved : Conserved val s
  posted_le : ∀ u ∈ s.users, u.posted ≤ u.taken
  lost : s.lost = 0

/-- What is in hands is what has been taken and not posted. -/
theorem held_add_posts (h : ∀ u ∈ s.users, u.posted ≤ u.taken) : s.held + s.posts = s.taken := by
  rw [held, posts, taken, ← List.sum_map_add]
  refine congrArg List.sum (List.map_congr_left fun u hu => ?_)
  exact Nat.sub_add_cancel (h u hu)

theorem OwnedOk.value_add_held (h : OwnedOk val s) (hsem : s.sem = some sem) :
    sem.value + s.held = val := by
  have hval := h.conserved sem hsem
  have hheld := held_add_posts h.posted_le
  have hlost := h.lost
  omega

theorem held_le (hu : s.users[i]? = some u) : u.held ≤ s.held :=
  List.le_sum_of_mem (List.mem_map_of_mem (List.mem_of_getElem? hu))

theorem OwnedOk.step (h : OwnedOk val s) (hval : val ≤ semValueMax) (ha : Owned s a)
    (hs : SemSys.step s a = some s') : OwnedOk val s' := by
  have hconserved := h.conserved.step hs
  rcases step_cases hs with ⟨i, refused, sem, u, ⟨res, sem'⟩, rfl, hsem, hu, hr, rfl⟩ |
    ⟨i, sem, u, rfl, hsem, hu, rfl⟩ | ⟨rfl, rfl⟩
  · refine ⟨hconserved, forall_mem_set h.posted_le (fun _ _ hx => hx) ?_, h.lost⟩
    have hle := h.posted_le u (List.mem_of_getElem? hu)
    show SemUser.posted (if res = .success then _ else u) ≤ SemUser.taken (if res = .success then _ else u)
    split
    · exact Nat.le_succ_of_le hle
    · exact hle
  · have howned : u.posted < u.taken := ha u hu
    refine ⟨hconserved, forall_mem_set h.posted_le (fun _ _ hx => hx) howned, ?_⟩
    -- a permit in hand is one that is not in the semaphore
    have hvalue := h.value_add_held hsem
    have hheld : u.held ≤ s.held := held_le hu
    have hpos : 0 < u.held := Nat.sub_pos_of_lt howned
    have hroom : sem.post.isSome := Semaphore.post_isSome_of_lt (by omega)
    show (if sem.post.isSome then s.lost else s.lost + 1) = 0
    rw [if_pos hroom]
    exact h.lost
  · exact ⟨hconserved, h.posted_le, h.lost⟩

/-- **No permit comes from nowhere**: in every run of any threads, whatever they post, the permits that
were there or posted are free, taken, or lost to a post that was refused. -/
theorem conserved_of_reach {refused : Option Errno} {v : UInt32} {n : Nat}
    (hinit : ipmSemaphoreInit refused v = (.success, some sem))
    (hr : Reach step (fun _ _ => True) (start sem n) s) (hlive : s.sem = some sem') :
    (ipmSemaphoreCount none sem').toNat + s.taken + s.lost = v.toNat + s.posts := by
  have hconserved : Conserved sem.value s :=
    hr.invariant conserved_start fun _ _ _ h _ hs => h.step hs
  rw [toNat_ipmSemaphoreCount, ← value_of_init hinit]
  exact hconserved sem' hlive

/-- One permit. -/
def one : IpmSem := ⟨1, by decide⟩

/-- A thread that waits, one that posts without having waited, and a wait that is interrupted. -/
def unasked : List SemEvent := [.wait 0 none, .post 1, .wait 1 (some (.other 4)), .post 0]

theorem conserved_unasked :
    ∃ (s : SemSys) (sem : IpmSem), sem.value = 2 ∧
      (ipmSemaphoreCount none sem).toNat + s.taken + s.lost = (1 : UInt32).toNat + s.posts := by
  have htrace : ∃ s, Reach step (fun _ _ => True) (start one 2) s ∧ s.sem.map Semaphore.value = some 2 :=
    exists_reach_of_trace (g := fun _ _ => true) (t := fun s => decide (s.sem.map Semaphore.value = some 2))
      unasked (fun _ _ _ => trivial) (fun _ h => of_decide_eq_true h) (by decide)
  obtain ⟨s, hr, hsem⟩ := htrace
  obtain ⟨sem, hlive, htwo⟩ := Option.map_eq_some_iff.mp hsem
  have hinit : ipmSemaphoreInit none 1 = (.success, some one) := rfl
  exact ⟨s, sem, htwo, conserved_of_reach hinit hr hlive⟩

/-- **A semaphore keeps its permits together**: where only holders post, the permits that are not free are
in somebody's hands, no post is refused, and a wait blocks exactly when they are all taken. -/
theorem permits_of_owned {refused : Option Errno} {v : UInt32} {n : Nat}
    (hinit : ipmSemaphoreInit refused v = (.success, some sem))
    (hr : Reach step Owned (start sem n) s) (hlive : s.sem = some sem') :
    (ipmSemaphoreCount none sem').toNat + s.held = v.toNat ∧ s.lost = 0 ∧
      (ipmSemaphoreWait none sem' = none ↔ s.held = v.toNat) := by
  have hval := value_of_init hinit
  have hle : v.toNat ≤ semValueMax := hval ▸ sem.value_le
  have hstart : OwnedOk v.toNat (start sem n) := by
    refine ⟨hval ▸ conserved_start, ?_, rfl⟩
    intro u hu
    obtain rfl := (List.mem_replicate.mp hu).2
    exact Nat.le_refl _
  have hok : OwnedOk v.toNat s := hr.invariant hstart fun _ _ _ h ha hs => h.step hle ha hs
  have hheld := hok.value_add_held hlive
  refine ⟨?_, hok.lost, ?_⟩
  · rw [toNat_ipmSemaphoreCount]
    exact hheld
  · rw [ipmSemaphoreWait, Option.map_eq_none_iff, Semaphore.take_eq_none_iff]
    omega

instance (s : SemSys) : (a : SemEvent) → Decidable (s.Owned a)
  | .wait _ _ => inferInstanceAs (Decidable True)
  | .post i => inferInstanceAs (Decidable (∀ u ∈ s.users[i]?, _))
  | .destroy => inferInstanceAs (Decidable True)

/-- One lock, two threads: the second gets it when the first has given it back. -/
def inTurns : List SemEvent := [.wait 0 none, .wait 1 (some (.other 4)), .post 0, .wait 1 none]

theorem permits_inTurns :
    ∃ (s : SemSys) (sem : IpmSem), s.held = 1 ∧ (ipmSemaphoreCount none sem).toNat + s.held = 1 ∧
      ipmSemaphoreWait none sem = none := by
  have htrace : ∃ s, Reach step Owned (start one 2) s ∧
      (s.held = 1 ∧ s.sem.map Semaphore.value = some 0) :=
    exists_reach_of_trace (g := fun s a => decide (s.Owned a))
      (t := fun s => decide (s.held = 1 ∧ s.sem.map Semaphore.value = some 0)) inTurns
      (fun _ _ h => of_decide_eq_true h) (fun _ h => of_decide_eq_true h) (by decide)
  obtain ⟨s, hr, hheld, hsem⟩ := htrace
  obtain ⟨sem, hlive, -⟩ := Option.map_eq_some_iff.mp hsem
  have hinit : ipmSemaphoreInit none 1 = (.success, some one) := rfl
  have hpermits := permits_of_owned hinit hr hlive
  exact ⟨s, sem, hheld, hpermits.1, hpermits.2.2.mpr hheld⟩

end SemSys

end Ipm
