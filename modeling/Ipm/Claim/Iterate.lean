import Ipm.Claim.Disjoint
import Ipm.Core.Mutex

/-!
# `claims_iterate`

The traversal of the list, callback by callback. It was written for a list that kept the number of its
*free* slots, and part of that is still there: `count == list->capacity` is answered with "no claims
are currently active". The other slip is the `return` inside the loop, past which nobody unlocks.

`param` is whatever the caller gave; a callback may change what it points to, so the calls are not
independent and their order matters.
-/

set_option autoImplicit false

namespace Ipm

open Lib

/-- A callback: the claim and what `param` points to, the answer and what it points to afterwards. -/
abbrev ClaimCallback (σ : Type) := MemoryClaim → σ → Int × σ

/-- What `claims_iterate` works on. `visited` is kept beside the program: the claims the callback has
been applied to. -/
structure Iteration (σ : Type) where
  list : ClaimList
  mutex : RobustMutex Nat
  param : σ
  visited : List MemoryClaim

variable {σ : Type}

/-- The `for` loop, from index `i` with `left` claims to go. It says whether it was left early. -/
def iterateLoop (callback : ClaimCallback σ) : (i left : Nat) → Iteration σ → Bool × Iteration σ
  | _, 0, s => (false, s)
  | i, left + 1, s =>
    let claim := s.list.claims i
    let called := callback claim s.param
    let s := { s with param := called.2, visited := s.visited ++ [claim] }
    if called.1 ≠ 0 then (true, s) else iterateLoop callback (i + 1) left s

/-- `claims_iterate`, called by process `me`. -/
def claimsIterate (b : Build) (me : Nat) (callback : ClaimCallback σ) (refused : Option Errno)
    (errno : Errno) (s : Iteration σ) : Option (Outcome (Iteration σ) IpmResult) :=
  let count := s.list.count % 2 ^ 32
  if b.ndebug = false ∧ ¬ count ≤ s.list.capacity then some (.stop .assertion s)
  else if count ≠ s.list.count then some (.ret .errListSizeMismatch s)
  -- No claims are currently active
  else if count = s.list.capacity then some (.ret .success s)
  else
    (ipmMutexLockBy s.mutex me refused errno).map fun (waitRes, mutex) =>
      let s := { s with mutex := mutex }
      if waitRes ≠ .success then .ret waitRes s
      else
        match iterateLoop callback 0 count s with
        | (true, s) => .ret .interrupted s
        | (false, s) => .ret .success { s with mutex := s.mutex.unlock me }

/-! ## What a traversal is -/

/-- What the callback answers, applied to `claims` one after the other. -/
def answers (callback : ClaimCallback σ) : List MemoryClaim → σ → List Int
  | [], _ => []
  | claim :: claims, p => (callback claim p).1 :: answers callback claims (callback claim p).2

/-- What is left at `param` after that. -/
def paramAfter (callback : ClaimCallback σ) (claims : List MemoryClaim) (p : σ) : σ :=
  claims.foldl (fun p claim => (callback claim p).2) p

/-- Some call asks for a stop. -/
def Stops (callback : ClaimCallback σ) (claims : List MemoryClaim) (p : σ) : Prop :=
  ∃ r ∈ answers callback claims p, r ≠ 0

/-- `calls` are the claims of `s` in order, up to and including the first whose callback asks for a
stop, or all of them. The result says which, and the caller does not have the mutex. -/
structure Traversed (callback : ClaimCallback σ) (me : Nat) (s s' : Iteration σ) (res : IpmResult)
    (calls : List MemoryClaim) : Prop where
  visited : s'.visited = s.visited ++ calls
  inOrder : calls <+: s.list.entries
  param : s'.param = paramAfter callback calls s.param
  goesOn : ∀ r ∈ (answers callback calls s.param).dropLast, r = 0
  ends : calls = s.list.entries ∨ Stops callback calls s.param
  interrupted : res = .interrupted ↔ Stops callback calls s.param
  completed : res = .success ↔ ¬ Stops callback calls s.param
  unlocked : s'.mutex.owner ≠ some me

/-- `claims_iterate` returns, from a traversal. -/
def IteratesFaithfully (b : Build) (me : Nat) (callback : ClaimCallback σ) (errno : Errno)
    (s : Iteration σ) : Prop :=
  ∃ res s' calls, claimsIterate b me callback none errno s = some (.ret res s') ∧
    Traversed callback me s s' res calls

variable {b : Build} {me : Nat} {callback : ClaimCallback σ} {errno : Errno} {s s' : Iteration σ}

@[simp] theorem answers_nil (p : σ) : answers callback [] p = [] := rfl

theorem stops_nil (p : σ) : ¬ Stops callback [] p := by
  rintro ⟨r, hr, -⟩
  cases hr

theorem stops_cons {claim : MemoryClaim} {claims : List MemoryClaim} {p : σ} :
    Stops callback (claim :: claims) p ↔
      (callback claim p).1 ≠ 0 ∨ Stops callback claims (callback claim p).2 := by
  simp [Stops, answers]

/-- The loop goes over a stretch of the array; what it leaves alone, and when it is left early. -/
theorem iterateLoop_spec (callback : ClaimCallback σ) :
    ∀ (left i : Nat) (s : Iteration σ),
      (iterateLoop callback i left s).2.mutex = s.mutex ∧
      ((iterateLoop callback i left s).1 = true ↔
        Stops callback (window (fun k => s.list.claims (i + k)) left) s.param) ∧
      ((iterateLoop callback i left s).1 = false →
        (iterateLoop callback i left s).2.visited =
          s.visited ++ window (fun k => s.list.claims (i + k)) left ∧
        (iterateLoop callback i left s).2.param =
          paramAfter callback (window (fun k => s.list.claims (i + k)) left) s.param) := by
  intro left
  induction left with
  | zero =>
    intro i s
    refine ⟨rfl, ?_, fun _ => ⟨?_, rfl⟩⟩
    · constructor
      · intro h
        cases h
      · intro h
        exact absurd h (stops_nil _)
    · simp [iterateLoop]
  | succ left ih =>
    intro i s
    have hshift : (fun k => s.list.claims (i + (k + 1))) = fun k => s.list.claims (i + 1 + k) := by
      funext k
      congr 1
      omega
    rw [window_succ', hshift, stops_cons, Nat.add_zero, iterateLoop]
    by_cases hstop : (callback (s.list.claims i) s.param).1 ≠ 0
    · rw [if_pos hstop]
      refine ⟨rfl, ⟨fun _ => .inl hstop, fun _ => rfl⟩, ?_⟩
      intro h
      cases h
    · rw [if_neg hstop]
      obtain ⟨hmutex, hstops, hrun⟩ := ih (i + 1)
        { s with param := (callback (s.list.claims i) s.param).2
                 visited := s.visited ++ [s.list.claims i] }
      refine ⟨hmutex, ?_, ?_⟩
      · rw [hstops]
        exact ⟨.inr, fun h => h.resolve_left hstop⟩
      · intro hall
        obtain ⟨hvisited, hparam⟩ := hrun hall
        refine ⟨?_, hparam⟩
        rw [hvisited, List.append_assoc]
        rfl

/-- A call that made no callback has traversed an empty list at most. -/
theorem Traversed.entries_nil {res : IpmResult} {calls : List MemoryClaim}
    (h : Traversed callback me s s' res calls) (hnone : s'.visited = s.visited) :
    s.list.count = 0 := by
  have hcalls : calls = [] := by
    have hv := h.visited
    rw [hnone] at hv
    exact List.self_eq_append_right.mp hv
  obtain rfl := hcalls
  have hentries := h.ends.resolve_right (stops_nil _)
  rw [← length_window s.list.claims s.list.count]
  exact congrArg List.length hentries.symm

theorem entries_nil_of_count (h : s.list.count = 0) : s.list.entries = [] := by
  rw [ClaimList.entries, h]
  rfl

/-- Nothing to visit, and nothing done. -/
theorem Traversed.none (hzero : s.list.count = 0) (hvisited : s'.visited = s.visited)
    (hparam : s'.param = s.param) (hfree : s'.mutex.owner ≠ some me) :
    Traversed callback me s s' .success [] := by
  refine ⟨by rw [hvisited, List.append_nil], List.nil_prefix, hparam, ?_, ?_, ?_, ?_, hfree⟩
  · intro r hr
    cases hr
  · exact .inl (entries_nil_of_count hzero).symm
  · constructor
    · intro h
      cases h
    · intro h
      exact absurd h (stops_nil _)
  · exact ⟨fun _ => stops_nil _, fun _ => rfl⟩

/-- A list that is not full and whose length an `unsigned` can say is traversed under the mutex. -/
theorem claimsIterate_locked (b : Build) (callback : ClaimCallback σ) (errno : Errno) {dead : Bool}
    {m : RobustMutex Nat} (hsmall : s.list.count < 2 ^ 32)
    (hle : s.list.count ≤ s.list.capacity) (hroom : s.list.count ≠ s.list.capacity)
    (hlock : s.mutex.acquire me = some (dead, m)) :
    claimsIterate b me callback none errno s =
      match iterateLoop callback 0 s.list.count { s with mutex := .held me } with
      | (true, s) => some (.ret .interrupted s)
      | (false, s) => some (.ret .success { s with mutex := s.mutex.unlock me }) := by
  have hassert : ¬ (b.ndebug = false ∧ ¬ s.list.count ≤ s.list.capacity) := fun h => h.2 hle
  simp only [claimsIterate, Nat.mod_eq_of_lt hsmall, if_neg hassert, ne_eq, not_true_eq_false,
    if_false, if_neg hroom, ipmMutexLockBy_acquire hlock, Option.map_some]
  rcases iterateLoop callback 0 s.list.count { s with mutex := .held me } with ⟨early, s₁⟩
  cases early <;> rfl

/-- Any other list is answered before the mutex is touched. -/
theorem claimsIterate_early (b : Build) (me : Nat) (callback : ClaimCallback σ) (errno : Errno)
    (hle : s.list.count ≤ s.list.capacity)
    (hearly : ¬ (s.list.count < 2 ^ 32 ∧ s.list.count ≠ s.list.capacity)) :
    ∃ res, claimsIterate b me callback none errno s = some (.ret res s) ∧
      (s.list.count = 0 → res = .success) := by
  have hassert : ¬ (b.ndebug = false ∧ ¬ s.list.count % 2 ^ 32 ≤ s.list.capacity) := by
    intro h
    exact h.2 ((Nat.mod_le _ _).trans hle)
  by_cases hsmall : s.list.count < 2 ^ 32
  · have hfull : s.list.count = s.list.capacity := by
      by_contra hroom
      exact hearly ⟨hsmall, hroom⟩
    refine ⟨.success, ?_, fun _ => rfl⟩
    rw [Nat.mod_eq_of_lt hsmall] at hassert
    simp only [claimsIterate, Nat.mod_eq_of_lt hsmall, if_neg hassert, ne_eq, not_true_eq_false,
      if_false, if_pos hfull]
  · have hcut : s.list.count % 2 ^ 32 ≠ s.list.count := by
      have := Nat.mod_lt s.list.count (show 0 < 2 ^ 32 by decide)
      omega
    refine ⟨.errListSizeMismatch, ?_, fun hzero => absurd hzero (by omega)⟩
    simp only [claimsIterate, if_neg hassert, if_pos hcut]

/-- With the mutex to be had: the list is empty, or it has a free slot and a length an `unsigned`
can say and no callback asks for a stop. -/
theorem iteratesFaithfully_locks_iff {dead : Bool} {m : RobustMutex Nat}
    (hle : s.list.count ≤ s.list.capacity) (hlock : s.mutex.acquire me = some (dead, m)) :
    IteratesFaithfully b me callback errno s ↔
      s.list.count = 0 ∨ s.list.count < 2 ^ 32 ∧ s.list.count ≠ s.list.capacity ∧
        ¬ Stops callback s.list.entries s.param := by
  have hfree : s.mutex.owner ≠ some me := by
    rw [(RobustMutex.owner_of_acquire hlock).1]
    exact (Option.some_ne_none me).symm
  by_cases hlocked : s.list.count < 2 ^ 32 ∧ s.list.count ≠ s.list.capacity
  · obtain ⟨hsmall, hroom⟩ := hlocked
    obtain ⟨hmutex, hstops, hrun⟩ := iterateLoop_spec callback s.list.count 0
      { s with mutex := .held me }
    have hwindow : window (fun k => s.list.claims (0 + k)) s.list.count = s.list.entries := by
      simp [ClaimList.entries]
    simp only [hwindow] at hstops hrun
    have hcode := claimsIterate_locked b callback errno hsmall hle hroom hlock
    generalize iterateLoop callback 0 s.list.count { s with mutex := .held me } = looped
      at hmutex hstops hrun hcode
    obtain ⟨early, s₁⟩ := looped
    cases early with
    | true =>
      -- left early, with the mutex
      have hstop : Stops callback s.list.entries s.param := hstops.mp rfl
      constructor
      · rintro ⟨res, s', calls, hret, htrav⟩
        rw [hcode] at hret
        obtain ⟨-, rfl⟩ := Outcome.ret.inj (Option.some.inj hret)
        exact absurd (congrArg RobustMutex.owner hmutex) htrav.unlocked
      · rintro (hzero | ⟨-, -, hgo⟩)
        · rw [entries_nil_of_count hzero] at hstop
          exact absurd hstop (stops_nil _)
        · exact absurd hstop hgo
    | false =>
      have hgo : ¬ Stops callback s.list.entries s.param := by
        intro hstop
        cases hstops.mpr hstop
      obtain ⟨hvisited, hparam⟩ := hrun rfl
      have hzeros : ∀ r ∈ (answers callback s.list.entries s.param).dropLast, r = 0 := by
        intro r hr
        by_contra hne
        exact hgo ⟨r, List.dropLast_subset _ hr, hne⟩
      refine ⟨fun _ => .inr ⟨hsmall, hroom, hgo⟩, fun _ => ⟨_, _, s.list.entries, hcode, ?_⟩⟩
      refine ⟨hvisited, List.prefix_rfl, hparam, hzeros, .inl rfl, ?_, ?_, ?_⟩
      · constructor
        · intro h
          cases h
        · intro h
          exact absurd h hgo
      · exact ⟨fun _ => hgo, fun _ => rfl⟩
      · show (s₁.mutex.unlock me).owner ≠ some me
        rw [show s₁.mutex = .held me from hmutex, RobustMutex.owner_unlock,
          if_pos (show (RobustMutex.held me).owner = some me from rfl)]
        exact (Option.some_ne_none me).symm
  · -- answered before the mutex is touched
    obtain ⟨res, hcode, hsuccess⟩ := claimsIterate_early b me callback errno hle hlocked
    constructor
    · rintro ⟨res', s', calls, hret, htrav⟩
      rw [hcode] at hret
      obtain ⟨-, rfl⟩ := Outcome.ret.inj (Option.some.inj hret)
      exact .inl (htrav.entries_nil rfl)
    · rintro (hzero | ⟨hsmall, hroom, -⟩)
      · rw [hsuccess hzero] at hcode
        exact ⟨_, _, [], hcode, Traversed.none hzero rfl rfl hfree⟩
      · exact absurd ⟨hsmall, hroom⟩ hlocked

/-- Without the mutex, the call returns without it. -/
theorem claimsIterate_not_locks {refused : Option Errno} {res : IpmResult}
    (hfree : s.mutex.owner ≠ some me) (hnot : ¬ Locks s.mutex me refused)
    (h : claimsIterate b me callback refused errno s = some (.ret res s')) :
    s'.mutex.owner ≠ some me := by
  simp only [claimsIterate] at h
  split_ifs at h
  · cases Option.some.inj h
  · obtain ⟨-, rfl⟩ := Outcome.ret.inj (Option.some.inj h)
    exact hfree
  · obtain ⟨-, rfl⟩ := Outcome.ret.inj (Option.some.inj h)
    exact hfree
  · obtain ⟨⟨waitRes, mutex⟩, hlock, hret⟩ := Option.map_eq_some_iff.mp h
    have howner : mutex.owner ≠ some me := by
      rw [owner_of_not_locks hnot hlock]
      exact hfree
    simp only at hret
    split_ifs at hret with hres
    · obtain ⟨-, rfl⟩ := Outcome.ret.inj hret
      exact howner
    · have hmutex := (iterateLoop_spec callback (s.list.count % 2 ^ 32) 0
        { s with mutex := mutex }).1
      generalize iterateLoop callback 0 (s.list.count % 2 ^ 32) { s with mutex := mutex } = looped
        at hmutex hret
      obtain ⟨early, s₁⟩ := looped
      have hkept : s₁.mutex = mutex := hmutex
      cases early with
      | true =>
        obtain ⟨-, rfl⟩ := Outcome.ret.inj hret
        rw [hkept]
        exact howner
      | false =>
        obtain ⟨-, rfl⟩ := Outcome.ret.inj hret
        show (s₁.mutex.unlock me).owner ≠ some me
        rw [hkept, RobustMutex.owner_unlock, if_neg howner]
        exact howner

/-- **When the traversal is one.** Given the mutex, the list has to be empty, or to have a free slot,
a length an `unsigned` can say and no callback that asks for a stop. Without it there is nothing to
go wrong. -/
theorem iteratesFaithfully_iff (b : Build) (callback : ClaimCallback σ) (errno : Errno)
    (hle : s.list.count ≤ s.list.capacity) (hfree : s.mutex.owner ≠ some me) :
    (Locks s.mutex me none →
      (IteratesFaithfully b me callback errno s ↔
        s.list.count = 0 ∨ s.list.count < 2 ^ 32 ∧ s.list.count ≠ s.list.capacity ∧
          ¬ Stops callback s.list.entries s.param)) ∧
    ∀ refused res s', ¬ Locks s.mutex me refused →
      claimsIterate b me callback refused errno s = some (.ret res s') →
      s'.mutex.owner ≠ some me := by
  refine ⟨?_, fun refused res s' hnot h => claimsIterate_not_locks hfree hnot h⟩
  intro hlocks
  obtain ⟨⟨dead, m⟩, hlock⟩ := Option.ne_none_iff_exists'.mp hlocks.2
  exact iteratesFaithfully_locks_iff hle hlock

/-- One claim in a list of `capacity` slots, and a callback that counts and answers `r`. -/
def oneClaim (capacity : Nat) : Iteration Nat :=
  { list := { listOf (sixteenAt 1 .readWrite 0) with capacity := capacity }
    mutex := .free
    param := 0
    visited := [] }

def tally (r : Int) : ClaimCallback Nat := fun _ n => (r, n + 1)

theorem iteratesFaithfully_tally :
    (oneClaim 2).list.count = 1 ∧
      IteratesFaithfully ⟨false⟩ 7 (tally 0) (.other 0) (oneClaim 2) := by
  have hlocks : Locks (oneClaim 2).mutex 7 none := ⟨rfl, by decide⟩
  have hiff := (iteratesFaithfully_iff ⟨false⟩ (tally 0) (.other 0) (by decide) (by decide)).1 hlocks
  refine ⟨rfl, hiff.mpr (.inr ⟨by decide, by decide, ?_⟩)⟩
  rintro ⟨r, hr, hne⟩
  exact hne (List.mem_singleton.mp hr)

/-- A full list is taken for an empty one, and a callback that asks for a stop leaves the mutex
with the caller. -/
theorem iterate_full_and_stopped :
    (claimsIterate ⟨false⟩ 7 (tally 0) none (.other 0) (oneClaim 1) =
        some (.ret .success (oneClaim 1)) ∧
      ¬ IteratesFaithfully ⟨false⟩ 7 (tally 0) (.other 0) (oneClaim 1)) ∧
    ((claimsIterate ⟨false⟩ 7 (tally 1) none (.other 0) (oneClaim 2)).map (·.shared.mutex) =
        some (.held 7) ∧
      ¬ IteratesFaithfully ⟨false⟩ 7 (tally 1) (.other 0) (oneClaim 2)) := by
  refine ⟨⟨rfl, ?_⟩, rfl, ?_⟩
  · rintro ⟨res, s', calls, hret, htrav⟩
    obtain ⟨-, rfl⟩ := Outcome.ret.inj (Option.some.inj hret)
    exact absurd (htrav.entries_nil rfl) (by decide)
  · rintro ⟨res, s', calls, hret, htrav⟩
    obtain ⟨-, rfl⟩ := Outcome.ret.inj (Option.some.inj hret)
    exact htrav.unlocked rfl

end Ipm
