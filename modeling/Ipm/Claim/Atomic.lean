import Ipm.Claim.Actors
import Ipm.Claim.Capacity

/-!
# A critical section is one step

`Claim/System.lean` takes a critical section of `list_mutex` for one step, and what is known of whole
runs (the ledger, exclusion, deadlock) is known of its runs. `Claim/Calls.lean` has the mutex, the
point each thread stands at and the waits. Here the second refines the first (`refines_claimSys`), so
that the coarse steps are no assumption about the scheduler.

A thread is in the middle of a section in one place only: in the `for (;;)`, where it has the mutex and
a claim (`Turning`). A claim fresh from `atomic_fetch_add` has changed the list already, and its section
is answered when the turn is made. A claim that has slept is a woken request by then.
Sleepers of `RegionSys` wake without a signal, so the sections that answer are `spurious` ones, and
nothing is said about signals.

`exclusive_of_cleanCalls` carries mutual exclusion back to the threads.
-/

set_option autoImplicit false

namespace Ipm

open Lib

/-! ## Releasing what is listed stays inside the array -/

/-- A listed id is removed, or the assertion on a full list stops the process. -/
theorem claimRemoveFromList_listed {b : Build} {l : ClaimList} {id : UInt64}
    (hle : l.count ≤ l.capacity) (hcap : l.capacity < 2 ^ 31)
    (hid : ∃ e ∈ l.entries, e.claimId = id) :
    (∃ p < l.count, claimRemoveFromList b id l = .ret .success (l.dropAt p)) ∨
      ∃ l', claimRemoveFromList b id l = .stop .assertion l' := by
  by_cases hassert : b.ndebug = true ∨ l.count < l.capacity
  · exact .inl (claimRemoveFromList_mem hle hcap hassert hid)
  · obtain ⟨hdebug, hfull⟩ := not_or.mp hassert
    have hc32 : l.count % 2 ^ 32 = l.count := Nat.mod_eq_of_lt (by omega)
    have hcheck : (b.ndebug ||
        decide (l.count % 2 ^ 32 < l.decCount.capacity ∧ l.count % 2 ^ 32 > 0)) ≠ true := by
      rw [hc32, l.decCount_capacity]
      simp [hdebug, hfull]
    refine .inr ⟨l.decCount, ?_⟩
    rw [claimRemoveFromList, Build.check, if_neg hcheck]

/-- A stop of a loop turn is a stop of the removal or of the turns after it. -/
theorem releaseAllLoop_ne_fault {b : Build} {id : UInt64} :
    ∀ (fuel i : Nat) (l l' : ClaimList), l.count ≤ l.capacity → l.capacity < 2 ^ 31 →
      releaseAllLoop b id fuel i l ≠ .stop .fault l' := by
  intro fuel
  induction fuel with
  | zero =>
    intro i l l' _ _
    rw [releaseAllLoop]
    split
    · intro h
      cases h
    · intro h
      cases h
  | succ fuel ih =>
    intro i l l' hle hcap
    rw [releaseAllLoop, intOf_of_lt (by omega)]
    split
    · rename_i hlt
      split
      · have hid : ∃ e ∈ l.entries, e.claimId = (l.claims i).claimId :=
          ⟨_, ClaimList.mem_entries.mpr ⟨i, by omega, rfl⟩, rfl⟩
        rcases claimRemoveFromList_listed (b := b) hle hcap hid with ⟨p, -, hrun⟩ | ⟨l₁, hrun⟩
        · rw [hrun, Outcome.andThen_ret]
          exact ih i (l.dropAt p) l' (by simp; omega) hcap
        · rw [hrun, Outcome.andThen_stop]
          intro h
          cases h
      · exact ih (i + 1) l l' hle hcap
    · intro h
      cases h

theorem removeAllLoop_ne_fault {b : Build} :
    ∀ (fuel : Nat) (l l' : ClaimList), l.count ≤ l.capacity → l.capacity < 2 ^ 31 →
      removeAllLoop b fuel l ≠ .stop .fault l' := by
  intro fuel
  induction fuel with
  | zero =>
    intro l l' _ _
    rw [removeAllLoop]
    split
    · intro h
      cases h
    · intro h
      cases h
  | succ fuel ih =>
    intro l l' hle hcap
    rw [removeAllLoop]
    split
    · have hid : ∃ e ∈ l.entries, e.claimId = (l.claims (l.count - 1)).claimId :=
        ⟨_, ClaimList.mem_entries.mpr ⟨l.count - 1, by omega, rfl⟩, rfl⟩
      rcases claimRemoveFromList_listed (b := b) hle hcap hid with ⟨p, -, hrun⟩ | ⟨l₁, hrun⟩
      · rw [hrun, Outcome.andThen_ret]
        exact ih (l.dropAt p) l' (by simp; omega) hcap
      · rw [hrun, Outcome.andThen_stop]
        intro h
        cases h
    · intro h
      cases h

namespace RegionSys

variable {b : Build} {s s' : RegionSys} {i : Nat} {t t' : RegionThread} {a : RegionEvent}
variable {l l' : ClaimList}

/-- **A releasing body that does not return was stopped by an assertion.** -/
theorem release_stop {call : RegionCall} {w : Stop} (hle : l.count ≤ l.capacity)
    (hcap : l.capacity < 2 ^ 31) (hlisted : ∀ id ∈ call.releases, ∃ e ∈ l.entries, e.claimId = id)
    (h : release b call l = .stop w l') : w = .assertion := by
  cases w with
  | assertion => rfl
  | spin => exact absurd h (release_ne_spin b call (by omega))
  | fault =>
    exfalso
    cases call with
    | claimRegion hd access offset count => cases h
    | releaseRegion hd id =>
      simp only [release, ipmMemoryReleaseRegion, ne_eq, not_true_eq_false, if_false] at h
      rcases claimRemoveFromList_listed (b := b) hle hcap (hlisted id rfl) with
        ⟨p, -, hrun⟩ | ⟨l₁, hrun⟩
      · rw [hrun] at h
        cases h
      · rw [hrun] at h
        cases h
    | releaseAll hd =>
      simp only [release, ipmMemoryReleaseAll, ne_eq, not_true_eq_false, if_false] at h
      cases hrun : releaseAllLoop b hd.accessId l.count 0 l with
      | ret res l₁ =>
        rw [hrun] at h
        cases h
      | stop w l₁ =>
        rw [hrun] at h
        cases h
        exact releaseAllLoop_ne_fault _ _ l l' hle hcap hrun
    | removeAllActiveClaims hd =>
      simp only [release, ipmMemoryRemoveAllActiveClaims, ne_eq, not_true_eq_false, if_false] at h
      cases hrun : removeAllLoop b l.count l with
      | ret res l₁ =>
        rw [hrun] at h
        cases h
      | stop w l₁ =>
        rw [hrun] at h
        cases h
        exact removeAllLoop_ne_fault _ l l' hle hcap hrun

/-! ## What the two systems have in common -/

/-- The claim a thread sleeps with. -/
def sleepsWith (t : RegionThread) : Option MemoryClaim :=
  match t.point with
  | .asleep claim => some claim
  | _ => none

/-- The critical section of a releasing call. -/
def label : RegionCall → Option ClaimEvent
  | .claimRegion .. => none
  | .releaseRegion h claimId => some (.releaseRegion h .success claimId)
  | .releaseAll h => some (.releaseAll h .success)
  | .removeAllActiveClaims _ => some (.removeAll .success)

/-- How far the sections have come while a thread is in the middle of one. -/
inductive Turning (s : RegionSys) (c : ClaimSys) : Prop
  | nobody (hturn : ∀ t ∈ s.threads, t.point.trying = none) (hlist : c.list = s.list)
      (hwoken : c.woken = [])
  /-- The claim has slept, and is a woken request. -/
  | woken {i : Nat} {t : RegionThread} {claim : MemoryClaim} (hget : s.threads[i]? = some t)
      (hp : t.point.trying = some claim) (hlist : c.list = s.list) (hwoken : c.woken = [claim])
  /-- The claim has just been built: its section takes the id and makes the first turn in one. -/
  | fresh {i : Nat} {t : RegionThread} {h : Handle} {access : AccessMode} {offset count : UInt64}
      (hget : s.threads[i]? = some t) (hcall : t.call = .claimRegion h access offset count)
      (hp : t.point.trying = some (c.list.newClaim h access offset count))
      (hlist : s.list = c.list.takeId) (hwoken : c.woken = [])

/-- The threads and the sections stand at the same list, with the same sleepers. -/
structure Sim (b : Build) (s : RegionSys) (c : ClaimSys) : Prop where
  capacity : CapacityOk s
  checked : ∀ t ∈ s.threads, t.call.start b = .lock ∨ (∃ res out, t.point = .returned res out) ∨
    t.point = .dead
  asleep : c.waiting.Perm (s.threads.filterMap sleepsWith)
  turning : Turning s c

/-- Label `e` is the section that the event `a` ends. -/
inductive Ends (s : RegionSys) (c : ClaimSys) : RegionEvent → ClaimEvent → Prop
  | claim {i : Nat} {t : RegionThread} {h : Handle} {access : AccessMode} {offset count : UInt64}
      (hget : s.threads[i]? = some t) (hcall : t.call = .claimRegion h access offset count)
      (hp : t.point.trying = some (c.list.newClaim h access offset count))
      (hlist : s.list = c.list.takeId) :
      Ends s c (.step i) (.claim h .success access offset count)
  | recheck {i : Nat} {t : RegionThread} {claim : MemoryClaim} (hget : s.threads[i]? = some t)
      (hp : t.point.trying = some claim) (hlist : c.list = s.list) (hwoken : c.woken = [claim]) :
      Ends s c (.step i) (.recheck 0)
  | wake {i j : Nat} {code : Option Errno} {errno : Errno} :
      Ends s c (.wake i code errno) (.spurious j)
  | waitFails {i j : Nat} {code : Option Errno} {errno : Errno} {claim : MemoryClaim} {dead : Bool}
      {m : RobustMutex Nat} (hm : s.mutex.acquire i = some (dead, m))
      (hawake : RegionPoint.awake dead code errno claim = .unlock .success none) :
      Ends s c (.wake i code errno) (.waitFails j)
  | release {i : Nat} {t : RegionThread} {e : ClaimEvent} (hget : s.threads[i]? = some t)
      (hp : t.point = .body) (he : label t.call = some e) (hlist : c.list = s.list) :
      Ends s c (.step i) e

variable {c c' : ClaimSys} {claim : MemoryClaim} {m m' : RobustMutex Nat}

/-! ## The sections -/

/-- An admitted claim ends its section on the list `claim_add_to_list` leaves. -/
theorem turn_of_add {res : IpmResult} (ha : admits c.list claim = true)
    (hrun : claimAddToList b claim c.list = .ret res l') :
    ∃ c', ClaimSys.turn b claim c = some c' ∧ c'.list = l' ∧ c'.waiting = c.waiting ∧
      c'.woken = c.woken := by
  simp only [ClaimSys.turn, claimRegionTurn, if_pos ha, hrun, Outcome.andThen_ret, ClaimSys.settle]
  cases res <;> exact ⟨_, rfl, rfl, rfl, rfl⟩

theorem turn_of_sleep (ha : admits c.list claim = false) :
    ClaimSys.turn b claim c = some { c with waiting := c.waiting ++ [claim] } := by
  simp [ClaimSys.turn, claimRegionTurn, ha, ClaimSys.settle]

/-- A section that returns, or is stopped by an assertion, ends on the list its body leaves. -/
theorem step_of_release {call : RegionCall} {e : ClaimEvent} (he : label call = some e)
    (hrun : (∃ res, release b call c.list = .ret res l') ∨
      release b call c.list = .stop .assertion l') :
    ∃ c', ClaimSys.step b c e = some c' ∧ c'.list = l' ∧ c'.waiting = c.waiting ∧
      c'.woken = c.woken := by
  cases call with
  | claimRegion h access offset count => cases he
  | releaseRegion h claimId =>
    cases he
    rcases hrun with ⟨res, hrun⟩ | hrun
    · simp only [release] at hrun
      simp only [ClaimSys.step, ClaimSys.giveBack, hrun, ClaimSys.settle]
      split <;> exact ⟨_, rfl, rfl, rfl, rfl⟩
    · simp only [release] at hrun
      simp only [ClaimSys.step, ClaimSys.giveBack, hrun, ClaimSys.settle]
      exact ⟨_, rfl, rfl, rfl, rfl⟩
  | releaseAll h =>
    cases he
    rcases hrun with ⟨res, hrun⟩ | hrun
    · simp only [release] at hrun
      simp only [ClaimSys.step, ClaimSys.purge, hrun, ClaimSys.settle]
      split <;> exact ⟨_, rfl, rfl, rfl, rfl⟩
    · simp only [release] at hrun
      simp only [ClaimSys.step, ClaimSys.purge, hrun, ClaimSys.settle]
      exact ⟨_, rfl, rfl, rfl, rfl⟩
  | removeAllActiveClaims h =>
    cases he
    rcases hrun with ⟨res, hrun⟩ | hrun
    · simp only [release] at hrun
      simp only [ClaimSys.step, ClaimSys.clear, hrun, ClaimSys.settle]
      split <;> exact ⟨_, rfl, rfl, rfl, rfl⟩
    · simp only [release] at hrun
      simp only [ClaimSys.step, ClaimSys.clear, hrun, ClaimSys.settle]
      exact ⟨_, rfl, rfl, rfl, rfl⟩

/-! ## One step -/

theorem holds_of_trying (hp : t.point.trying = some claim) : t.point.holds = true := by
  cases hpoint : t.point with
  | turn claim' => rfl
  | admitted claim' => rfl
  | _ => rw [hpoint] at hp; cases hp

/-- While the mutex is free, or is another's than the one in the loop, nobody is in the loop. -/
theorem Sim.nobody (h : Sim b s c) (hturn : ∀ j t claim, s.threads[j]? = some t →
    t.point.trying = some claim → s.mutex.owner ≠ some j) :
    (∀ t ∈ s.threads, t.point.trying = none) ∧ c.list = s.list ∧ c.woken = [] := by
  have hnot : ∀ {j : Nat} {u : RegionThread} {claim : MemoryClaim}, s.threads[j]? = some u →
      u.point.trying ≠ some claim := by
    intro j u claim hget hp
    exact hturn j u claim hget hp (h.capacity.owner_of_holds hget (holds_of_trying hp))
  cases h.turning with
  | nobody hall hlist hwoken => exact ⟨hall, hlist, hwoken⟩
  | woken hget hp => exact absurd hp (hnot hget)
  | fresh hget hcall hp => exact absurd hp (hnot hget)

/-- The owner is not in the loop, so nobody is. -/
theorem Sim.nobody_of_holds (h : Sim b s c) (hget : s.threads[i]? = some t)
    (hholds : t.point.holds = true) (hp : t.point.trying = none) :
    (∀ t ∈ s.threads, t.point.trying = none) ∧ c.list = s.list ∧ c.woken = [] := by
  refine h.nobody fun j u claim hu hup hown => ?_
  have hi := h.capacity.owner_of_holds hget hholds
  obtain rfl : i = j := Option.some.inj (hi.symm.trans hown)
  rw [hget] at hu
  cases hu
  rw [hp] at hup
  cases hup

theorem Sim.nobody_of_free (h : Sim b s c) (hfree : s.mutex.owner = none) :
    (∀ t ∈ s.threads, t.point.trying = none) ∧ c.list = s.list ∧ c.woken = [] := by
  refine h.nobody fun j u claim _ _ hown => ?_
  rw [hfree] at hown
  cases hown

/-- A thread that moves and stays inside the loop, or outside, leaves the one inside there. -/
theorem Turning.set (h : Turning s c) (hget : s.threads[i]? = some t)
    (hp : t'.point.trying = t.point.trying) (hcall' : t'.call = t.call) :
    Turning ⟨m, s.list, s.threads.set i t'⟩ c := by
  have hkeep : ∀ {j : Nat} {u : RegionThread}, s.threads[j]? = some u →
      ∃ v, (s.threads.set i t')[j]? = some v ∧ v.point.trying = u.point.trying ∧ v.call = u.call := by
    intro j u hu
    by_cases hj : i = j
    · subst hj
      rw [hget] at hu
      cases hu
      exact ⟨t', List.getElem?_set_self (List.getElem?_eq_some_iff.mp hget).1, hp, hcall'⟩
    · rw [List.getElem?_set_ne hj]
      exact ⟨u, hu, rfl, rfl⟩
  cases h with
  | nobody hall hlist hwoken =>
    refine .nobody (forall_mem_set hall (fun _ _ hx => hx) ?_) hlist hwoken
    rw [hp]
    exact hall t (List.mem_of_getElem? hget)
  | woken hget' hpt hlist hwoken =>
    obtain ⟨v, hv, hvp, -⟩ := hkeep hget'
    exact .woken hv (hvp.trans hpt) hlist hwoken
  | fresh hget' hcall hpt hlist hwoken =>
    obtain ⟨v, hv, hvp, hvcall⟩ := hkeep hget'
    exact .fresh hv (hvcall.trans hcall) (hvp.trans hpt) hlist hwoken

/-- A move is made by a thread that has not returned, and it stays in its call. -/
theorem ThreadMove.call_eq (h : ThreadMove b i m l t a m' l' t') :
    t'.call = t.call ∧ (∀ res out, t.point ≠ .returned res out) ∧ t.point ≠ .dead := by
  cases h with
  | die hret hdead => exact ⟨rfl, hret, hdead⟩
  | _ => simp_all

theorem Sim.checked_set (h : Sim b s c) (hget : s.threads[i]? = some t)
    (hmove : ThreadMove b i s.mutex s.list t a m l t') :
    t.call.start b = .lock ∧ ∀ t ∈ s.threads.set i t', t.call.start b = .lock ∨
      (∃ res out, t.point = .returned res out) ∨ t.point = .dead := by
  obtain ⟨hcall, hret, hdead⟩ := hmove.call_eq
  have hstart : t.call.start b = .lock := by
    rcases h.checked t (List.mem_of_getElem? hget) with hstart | ⟨res, out, hp⟩ | hp
    · exact hstart
    · exact absurd hp (hret res out)
    · exact absurd hp hdead
  exact ⟨hstart, forall_mem_set h.checked (fun _ _ hx => hx) (.inl (hcall ▸ hstart))⟩

/-- The turn a thread is about to make is the end of a section of the other system. -/
theorem Sim.turn (h : Sim b s c) (hget : s.threads[i]? = some t) (hp : t.point.trying = some claim)
    (hstart : t.call.start b = .lock) :
    ∃ e c₀, Ends s c (.step i) e ∧ ClaimSys.step b c e = ClaimSys.turn b claim c₀ ∧
      c₀.list = s.list ∧ c₀.waiting = c.waiting ∧ c₀.woken = [] := by
  -- the one in the loop is the owner
  have hsame : ∀ {j : Nat} {u : RegionThread} {d : MemoryClaim}, s.threads[j]? = some u →
      u.point.trying = some d → u = t := by
    intro j u d hu hup
    have hj := h.capacity.owner_of_holds hu (holds_of_trying hup)
    have hi := h.capacity.owner_of_holds hget (holds_of_trying hp)
    obtain rfl : i = j := Option.some.inj (hi.symm.trans hj)
    rw [hget] at hu
    exact (Option.some.inj hu).symm
  cases h.turning with
  | nobody hall =>
    rw [hall t (List.mem_of_getElem? hget)] at hp
    cases hp
  | woken hget' hp' hlist hwoken =>
    obtain rfl := hsame hget' hp'
    rw [hp] at hp'
    cases hp'
    refine ⟨.recheck 0, { c with woken := [] }, .recheck hget hp hlist hwoken, ?_, hlist, rfl, rfl⟩
    simp [ClaimSys.step, hwoken]
  | @fresh _ _ hd access offset count hget' hcall hp' hlist hwoken =>
    obtain rfl := hsame hget' hp'
    rw [hp] at hp'
    cases hp'
    refine ⟨.claim hd .success access offset count, { c with list := c.list.takeId },
      .claim hget hcall hp hlist, ?_, hlist.symm, rfl, hwoken⟩
    rw [hcall] at hstart
    simp only [RegionCall.start] at hstart
    split at hstart
    · cases hstart
    · rename_i hassert
      split at hstart
      · cases hstart
      · rename_i hcheck
        simp [ClaimSys.step, hassert, hcheck]

/-- The other system answers the event with a section it ends, or with nothing. -/
def Answered (b : Build) (s : RegionSys) (c : ClaimSys) (a : RegionEvent) (s' : RegionSys) : Prop :=
  ∃ c', (c' = c ∨ ∃ e, Ends s c a e ∧ ClaimSys.step b c e = some c') ∧ Sim b s' c'

/-- A move that leaves the list and does not enter or leave the loop. -/
theorem Sim.stutter (h : Sim b s c) (hget : s.threads[i]? = some t)
    (hmove : ThreadMove b i s.mutex s.list t a m s.list t')
    (hok : CapacityOk ⟨m, s.list, s.threads.set i t'⟩) (hp : t'.point.trying = t.point.trying)
    (hsleep : sleepsWith t' = sleepsWith t) :
    Answered b s c a ⟨m, s.list, s.threads.set i t'⟩ := by
  refine ⟨c, .inl rfl, hok, (h.checked_set hget hmove).2, ?_,
    h.turning.set hget hp hmove.call_eq.1⟩
  exact (filterMap_set_of_eq hget hsleep).symm ▸ h.asleep

/-- A call comes in, and has not locked. -/
theorem Sim.start {call : RegionCall} (h : Sim b s c)
    (hok : CapacityOk { s with threads := s.threads ++ [.start b call] }) :
    Answered b s c (.call call) { s with threads := s.threads ++ [.start b call] } := by
  have hstart := start_cases b call
  have hsleep : sleepsWith (.start b call) = none := by
    rcases hstart with hp | hp | ⟨res, hp⟩ <;> simp [sleepsWith, RegionThread.start, hp]
  have hturn : (RegionThread.start b call).point.trying = none := by
    rcases hstart with hp | hp | ⟨res, hp⟩ <;> simp [RegionThread.start, hp, RegionPoint.trying]
  have hkeep : ∀ {j : Nat} {u : RegionThread}, s.threads[j]? = some u →
      (s.threads ++ [.start b call])[j]? = some u := by
    intro j u hu
    rw [List.getElem?_append_left (List.getElem?_eq_some_iff.mp hu).1]
    exact hu
  refine ⟨c, .inl rfl, hok, ?_, ?_, ?_⟩
  · refine List.forall_mem_append.mpr ⟨h.checked, List.forall_mem_singleton.mpr ?_⟩
    rcases hstart with hp | hp | ⟨res, hp⟩
    · exact .inl hp
    · exact .inr (.inr hp)
    · exact .inr (.inl ⟨res, none, hp⟩)
  · rw [List.filterMap_append, List.filterMap_cons_none hsleep, List.filterMap_nil, List.append_nil]
    exact h.asleep
  · cases h.turning with
    | nobody hall hlist hwoken =>
      have hall' := List.forall_mem_append.mpr ⟨hall, List.forall_mem_singleton.mpr hturn⟩
      exact .nobody hall' hlist hwoken
    | woken hget hp hlist hwoken => exact .woken (hkeep hget) hp hlist hwoken
    | fresh hget hcall hp hlist hwoken => exact .fresh (hkeep hget) hcall hp hlist hwoken

/-- The claim is built; its section begins here and ends with the turn. -/
theorem Sim.takeId {h : Handle} {access : AccessMode} {offset count : UInt64} (hsim : Sim b s c)
    (hget : s.threads[i]? = some t)
    (hok : CapacityOk ⟨s.mutex, s.list.takeId, s.threads.set i
      { t with point := .turn (s.list.newClaim h access offset count)
               claim := some (s.list.newClaim h access offset count) }⟩)
    (hp : t.point = .body) (hcall : t.call = .claimRegion h access offset count) :
    Answered b s c (.step i) ⟨s.mutex, s.list.takeId, s.threads.set i
      { t with point := .turn (s.list.newClaim h access offset count)
               claim := some (s.list.newClaim h access offset count) }⟩ := by
  obtain ⟨-, hlist, hwoken⟩ :=
    hsim.nobody_of_holds hget (by rw [hp]; rfl) (by rw [hp]; rfl)
  refine ⟨c, .inl rfl, hok, (hsim.checked_set hget (.takeId hp hcall)).2, ?_, ?_⟩
  · rw [filterMap_set_of_eq hget (by simp [sleepsWith, hp])]
    exact hsim.asleep
  · refine .fresh (i := i) (t := { t with
      point := .turn (s.list.newClaim h access offset count)
      claim := some (s.list.newClaim h access offset count) }) ?_ hcall ?_ ?_ hwoken
    · exact List.getElem?_set_self (List.getElem?_eq_some_iff.mp hget).1
    · rw [hlist]
      rfl
    · rw [hlist]

/-- A body of a releasing call, returning or stopped. -/
theorem Sim.release (h : Sim b s c) (hget : s.threads[i]? = some t)
    (hmove : ThreadMove b i s.mutex s.list t (.step i) m l' t')
    (hok : CapacityOk ⟨m, l', s.threads.set i t'⟩) (hp : t.point = .body)
    (hcall : ∀ h access offset count, t.call ≠ .claimRegion h access offset count)
    (hrun : (∃ res, release b t.call s.list = .ret res l') ∨
      release b t.call s.list = .stop .assertion l')
    (hp' : t'.point.trying = none) (hsleep : sleepsWith t' = none) :
    Answered b s c (.step i) ⟨m, l', s.threads.set i t'⟩ := by
  obtain ⟨e, he⟩ : ∃ e, label t.call = some e := by
    cases hc : t.call with
    | claimRegion hd access offset count => exact absurd hc (hcall hd access offset count)
    | releaseRegion hd id => exact ⟨_, rfl⟩
    | releaseAll hd => exact ⟨_, rfl⟩
    | removeAllActiveClaims hd => exact ⟨_, rfl⟩
  obtain ⟨hall, hlist, hwoken⟩ := h.nobody_of_holds hget (by rw [hp]; rfl) (by rw [hp]; rfl)
  obtain ⟨c', hstep, hlist', hwaiting, hwoken'⟩ := step_of_release he (hlist ▸ hrun)
  refine ⟨c', .inr ⟨e, .release hget hp he hlist, hstep⟩, hok, (h.checked_set hget hmove).2, ?_, ?_⟩
  · have hsame : sleepsWith t' = sleepsWith t := by
      rw [hsleep, sleepsWith, hp]
    rw [hwaiting, filterMap_set_of_eq hget hsame]
    exact h.asleep
  · exact .nobody (forall_mem_set hall (fun _ _ hx => hx) hp') hlist' (hwoken'.trans hwoken)

/-- A sleeper is up again: back in the loop, or on its way out. -/
theorem Sim.wake {dead : Bool} {code : Option Errno} {errno : Errno} (h : Sim b s c)
    (hget : s.threads[i]? = some t) (hp : t.point = .asleep claim)
    (hm : s.mutex.acquire i = some (dead, m))
    (hok : CapacityOk ⟨m, s.list,
      s.threads.set i { t with point := .awake dead code errno claim }⟩) :
    Answered b s c (.wake i code errno)
      ⟨m, s.list, s.threads.set i { t with point := .awake dead code errno claim }⟩ := by
  obtain ⟨hall, hlist, hwoken⟩ := h.nobody_of_free (RobustMutex.owner_of_acquire hm).1
  have hmove : ThreadMove b i s.mutex s.list t (.wake i code errno) m s.list
      { t with point := .awake dead code errno claim } := .wake hp hm
  have hchecked := (h.checked_set hget hmove).2
  have hsleeps : sleepsWith t = some claim := by simp [sleepsWith, hp]
  have hmem : claim ∈ c.waiting :=
    h.asleep.mem_iff.mpr (List.mem_filterMap.mpr ⟨t, List.mem_of_getElem? hget, hsleeps⟩)
  obtain ⟨j, hj, hwait⟩ := List.getElem_of_mem hmem
  have hget' : c.waiting[j]? = some claim := by rw [List.getElem?_eq_getElem hj, hwait]
  -- one sleeper less on either side
  have hless : ∀ t', sleepsWith t' = none →
      (c.waiting.eraseIdx j).Perm ((s.threads.set i t').filterMap sleepsWith) := by
    intro t' hnone
    refine List.Perm.cons_inv (a := claim) ?_
    have hcons := List.getElem_cons_eraseIdx_perm hj
    rw [hwait] at hcons
    exact hcons.trans (h.asleep.trans (perm_filterMap_of_set hget hsleeps hnone))
  rcases awake_cases dead code errno claim with ⟨-, hawake⟩ | hawake
  · refine ⟨{ c with waiting := c.waiting.eraseIdx j, woken := c.woken ++ [claim] },
      .inr ⟨.spurious j, .wake, by simp [ClaimSys.step, hget']⟩, hok, hchecked, ?_, ?_⟩
    · exact hless _ (by simp [sleepsWith, hawake])
    · have hlt := (List.getElem?_eq_some_iff.mp hget).1
      refine .woken (i := i) (t := { t with point := .awake dead code errno claim }) ?_
        (congrArg RegionPoint.trying hawake) hlist ?_
      · simp [hlt]
      · simp [hwoken]
  · refine ⟨{ c with waiting := c.waiting.eraseIdx j, granted := claim :: c.granted },
      .inr ⟨.waitFails j, .waitFails hm hawake, by simp [ClaimSys.step, hget']⟩, hok, hchecked,
      ?_, ?_⟩
    · exact hless _ (by simp [sleepsWith, hawake])
    · refine .nobody (forall_mem_set hall (fun _ _ hx => hx) ?_) hlist hwoken
      exact congrArg RegionPoint.trying hawake

/-- The turn is made: the claim is listed, or sleeps. -/
theorem Sim.loop (h : Sim b s c) (hget : s.threads[i]? = some t)
    (hmove : ThreadMove b i s.mutex s.list t (.step i) m l' t')
    (hok : CapacityOk ⟨m, l', s.threads.set i t'⟩) (hp : t.point.trying = some claim)
    (hp' : t'.point.trying = none)
    (hrun : (admits s.list claim = true ∧ (∃ res, claimAddToList b claim s.list = .ret res l') ∧
      sleepsWith t' = none) ∨
      (admits s.list claim = false ∧ l' = s.list ∧ sleepsWith t' = some claim)) :
    Answered b s c (.step i) ⟨m, l', s.threads.set i t'⟩ := by
  obtain ⟨hstart, hchecked⟩ := h.checked_set hget hmove
  obtain ⟨e, c₀, hends, hturn, hlist, hwaiting, hwoken⟩ := h.turn hget hp hstart
  have hawake : sleepsWith t = none := by
    cases hpoint : t.point with
    | asleep d => rw [hpoint] at hp; cases hp
    | _ => simp [sleepsWith, hpoint]
  have hother : ∀ u ∈ s.threads.set i t', u.point.trying = none := by
    intro u hu
    rcases mem_set_or hu with rfl | ⟨j, hj, hget'⟩
    · exact hp'
    · cases hud : u.point.trying with
      | none => rfl
      | some d =>
        have hown := h.capacity.owner_of_holds hget' (holds_of_trying hud)
        rw [h.capacity.owner_of_holds hget (holds_of_trying hp)] at hown
        exact absurd (Option.some.inj hown).symm hj
  rcases hrun with ⟨ha, ⟨res, hadd⟩, hnone⟩ | ⟨ha, rfl, hsleep⟩
  · rw [← hlist] at ha hadd
    obtain ⟨c', hstep, hlist', hwaiting', hwoken'⟩ := turn_of_add ha hadd
    refine ⟨c', .inr ⟨e, hends, hturn.trans hstep⟩, hok, hchecked, ?_,
      .nobody hother hlist' (hwoken'.trans hwoken)⟩
    rw [hwaiting', hwaiting, filterMap_set_of_eq hget (hnone.trans hawake.symm)]
    exact h.asleep
  · rw [← hlist] at ha
    refine ⟨_, .inr ⟨e, hends, hturn.trans (turn_of_sleep ha)⟩, hok, hchecked, ?_,
      .nobody hother hlist hwoken⟩
    show (c₀.waiting ++ [claim]).Perm _
    rw [hwaiting]
    exact (List.perm_append_singleton claim c.waiting).trans
      ((h.asleep.cons claim).trans (filterMap_set_perm hget hawake hsleep).symm)

/-- **Every step of a thread is answered**: it ends one critical section, or none. -/
theorem Sim.step (h : Sim b s c) (hg : s.Orderly a) (hs : RegionSys.step b s a = some s') :
    Answered b s c a s' := by
  have hok := h.capacity.step hg hs
  have hle := h.capacity.le_capacity
  have hcap := h.capacity.capacity_lt
  rcases step_cases hs with ⟨call, rfl, rfl⟩ | ⟨i, t, m, l, t', hget, hmove, rfl⟩
  · exact h.start hok
  · cases hmove with
    | @acquire dead _ hp hm =>
      refine h.stutter hget (.acquire hp hm) hok ?_ ?_
      · cases dead <;> simp [RegionPoint.trying, hp]
      · cases dead <;> simp [sleepsWith, hp]
    | trespass hp hcode hres => exact absurd (errno_of_lock hcode hres) hg.2
    | refuse hp hres =>
      exact h.stutter hget (.refuse hp hres) hok (by rw [hp]; rfl) (by simp [sleepsWith, hp])
    | wake hp hm => exact h.wake hget hp hm hok
    | repair hp =>
      exact h.stutter hget (.repair hp) hok (by rw [hp]; rfl) (by simp [sleepsWith, hp])
    | takeId hp hcall => exact h.takeId hget hok hp hcall
    | release hp hcall hrun =>
      exact h.release hget (.release hp hcall hrun) hok hp hcall (.inl ⟨_, hrun⟩) rfl rfl
    | @sleep claim hp ha hown =>
      exact h.loop hget (.sleep hp ha hown) hok (congrArg RegionPoint.trying hp) rfl
        (.inr ⟨ha, rfl, rfl⟩)
    | refuseWait hp hown =>
      exact absurd (h.capacity.owner_of_holds hget (by rw [hp]; rfl)) hown
    | letIn hp ha =>
      exact h.stutter hget (.letIn hp ha) hok (by rw [hp]; rfl) (by simp [sleepsWith, hp])
    | @add claim _ _ hp hrun hres =>
      have ha := h.capacity.admitted t (List.mem_of_getElem? hget) claim hp
      exact h.loop hget (.add hp hrun hres) hok (congrArg RegionPoint.trying hp) rfl
        (.inl ⟨ha, ⟨_, hrun⟩, rfl⟩)
    | @mismatch claim _ hp hrun =>
      have ha := h.capacity.admitted t (List.mem_of_getElem? hget) claim hp
      rw [claimAddToList_putAt (lt_capacity_of_admits hle ha) hcap] at hrun
      cases hrun
    | unlockMismatch hp =>
      exact h.stutter hget (.unlockMismatch hp) hok (by rw [hp]; rfl) (by simp [sleepsWith, hp])
    | unlock hp =>
      exact h.stutter hget (.unlock hp) hok (by rw [hp]; rfl) (by simp [sleepsWith, hp])
    | stopped hp hcall hrun =>
      obtain rfl := release_stop hle hcap (hg.1 t hget hp) hrun
      exact h.release hget (.stopped hp hcall hrun) hok hp hcall (.inr hrun) rfl rfl
    | @stoppedAdding claim _ _ hp hrun =>
      have ha := h.capacity.admitted t (List.mem_of_getElem? hget) claim hp
      rw [claimAddToList_putAt (lt_capacity_of_admits hle ha) hcap] at hrun
      cases hrun
    | die hret hdead => exact absurd hg.1 id

/-! ## Whole runs -/

theorem sim_init {raw : ClaimList} {capacity : Nat} (hcap : capacity < 2 ^ 31) :
    Sim b (init raw capacity) (ClaimSys.init raw capacity) := by
  refine ⟨⟨Nat.zero_le _, hcap, ?_, fun i => ?_, ?_⟩, ?_, List.Perm.refl _, .nobody ?_ rfl rfl⟩
  · exact List.forall_mem_nil _
  · simp [init, RobustMutex.owner]
  · exact List.forall_mem_nil _
  · exact List.forall_mem_nil _
  · exact List.forall_mem_nil _

theorem Sim.list (h : Sim b s c) : c.list.entries = s.list.entries ∧
    ((∀ t ∈ s.threads, t.point.trying = none) → c.list = s.list ∧ c.woken = []) := by
  cases h.turning with
  | nobody hall hlist hwoken => exact ⟨by rw [hlist], fun _ => ⟨hlist, hwoken⟩⟩
  | woken hget hp hlist =>
    refine ⟨by rw [hlist], fun hall => ?_⟩
    rw [hall _ (List.mem_of_getElem? hget)] at hp
    cases hp
  | fresh hget hcall hp hlist =>
    refine ⟨by rw [hlist]; rfl, fun hall => ?_⟩
    rw [hall _ (List.mem_of_getElem? hget)] at hp
    cases hp

/-- **The region calls, lock by lock, refine the system of critical sections**: whatever an orderly
run of threads has come to, a run of whole sections comes to the same entries and the same sleepers,
and to the same list when nobody is in the middle of the loop. -/
theorem refines_claimSys {raw : ClaimList} {capacity : Nat} (hcap : capacity < 2 ^ 31)
    (hr : Reach (RegionSys.step b) (fun s a => s.Orderly a) (init raw capacity) s) :
    ∃ c, Reach (ClaimSys.step b) (fun _ _ => True) (ClaimSys.init raw capacity) c ∧
      c.list.entries = s.list.entries ∧ c.waiting.Perm (s.threads.filterMap sleepsWith) ∧
      ((∀ t ∈ s.threads, t.point.trying = none) → c.list = s.list ∧ c.woken = []) := by
  have hstep : ∀ s a s' c, Sim b s c → s.Orderly a → RegionSys.step b s a = some s' →
      ∃ c', Reach (ClaimSys.step b) (fun _ _ => True) c c' ∧ Sim b s' c' := by
    intro s a s' c h hg hs
    obtain ⟨c', hans, hsim⟩ := h.step hg hs
    refine ⟨c', ?_, hsim⟩
    rcases hans with rfl | ⟨e, -, he⟩
    · exact .init
    · exact .next .init trivial he
  obtain ⟨c, hrun, hsim⟩ := hr.simulation (sim_init hcap) hstep
  exact ⟨c, hrun, hsim.list.1, hsim.asleep, hsim.list.2⟩

theorem refines_claimWaitRelease :
    ∃ s, Reach (RegionSys.step ⟨false⟩) (fun s a => s.Orderly a) (init zeroList pageCapacity) s ∧
      s.threads.map (·.unlocks) = [1, 1, 1] ∧
      ∃ c, Reach (ClaimSys.step ⟨false⟩) (fun _ _ => True) (ClaimSys.init zeroList pageCapacity) c ∧
        c.list.entries = s.list.entries ∧ c.waiting.Perm (s.threads.filterMap sleepsWith) ∧
        ((∀ t ∈ s.threads, t.point.trying = none) → c.list = s.list ∧ c.woken = []) := by
  have htrace : ∃ s, Reach (RegionSys.step ⟨false⟩) (fun s a => s.Orderly a)
      (init zeroList pageCapacity) s ∧ s.threads.map (·.unlocks) = [1, 1, 1] :=
    exists_reach_of_trace (g := fun s a => decide (s.Orderly a))
      (t := fun s => decide (s.threads.map (·.unlocks) = [1, 1, 1]))
      claimWaitRelease (fun _ _ h => of_decide_eq_true h) (fun _ h => of_decide_eq_true h)
      (by decide +kernel)
  obtain ⟨s, hr, hend⟩ := htrace
  exact ⟨s, hr, hend, refines_claimSys (by decide) hr⟩

/-! ## Exclusion, thread by thread

The condition `Clean` on a section, read off the state of the threads before the step that ends it. -/

/-- What `Clean` and `Owned` read: the list, and that its entries are the claims in force. -/
def ofList (l : ClaimList) : ClaimSys :=
  { list := l, waiting := [], woken := [], signals := 0, granted := l.entries }

/-- The request lies inside the block, as integers. -/
def CallInRange : RegionCall → Prop
  | .claimRegion h _ offset count => offset.toNat + count.toNat ≤ h.size.toNat
  | _ => True

instance (call : RegionCall) : Decidable (CallInRange call) := by
  cases call <;> simp only [CallInRange] <;> infer_instance

/-- Nobody dies, no wait fails, no thread goes on without the mutex, and a body or turn that is about
to run is clean. -/
def CleanCalls (b : Build) (s : RegionSys) : RegionEvent → Prop
  | .die _ _ => False
  | .lock i refused => Honest (.lock i refused)
  | .wake _ code _ => code = none ∧ s.mutex ≠ .ownerDead
  | .step i => ∀ t ∈ s.threads[i]?,
    (∀ claim, t.point.trying = some claim → CallInRange t.call ∧ (ofList s.list).Appends claim) ∧
    (t.point = .body → ∀ e ∈ label t.call, (ofList s.list).Owned e ∧ (ofList s.list).Clean b e)
  | _ => True

theorem CleanCalls.orderly (h : CleanCalls b s a) : s.Orderly a := by
  cases a with
  | die i left => exact absurd h id
  | call call => exact ⟨trivial, trivial⟩
  | lock i refused => exact ⟨trivial, h⟩
  | wake i code errno => exact ⟨trivial, trivial⟩
  | step i =>
    refine ⟨?_, trivial⟩
    intro t ht hp id hid
    cases hcall : t.call with
    | releaseRegion hd claimId =>
      rw [hcall] at hid
      cases hid
      obtain ⟨⟨e, he, -, hid⟩, -⟩ := (h t ht).2 hp (.releaseRegion hd .success id) (by rw [hcall]; rfl)
      exact ⟨e, he, hid⟩
    | claimRegion hd access offset count =>
      rw [hcall] at hid
      cases hid
    | releaseAll hd =>
      rw [hcall] at hid
      cases hid
    | removeAllActiveClaims hd =>
      rw [hcall] at hid
      cases hid

/-- A clean step of a thread ends a clean section. -/
theorem Ends.clean {e : ClaimEvent} (h : Ends s c a e) (hok : c.LedgerOk) (hg : CleanCalls b s a) :
    c.Owned e ∧ e.InRange ∧ c.Clean b e := by
  cases h with
  | claim hget hcall hp hlist =>
    obtain ⟨hin, happ⟩ := (hg _ hget).1 _ hp
    rw [hcall] at hin
    rw [hlist] at happ
    exact ⟨trivial, hin, fun _ _ => happ⟩
  | recheck hget hp hlist hwoken =>
    obtain ⟨-, happ⟩ := (hg _ hget).1 _ hp
    rw [← hlist] at happ
    refine ⟨trivial, trivial, fun claim hclaim => ?_⟩
    rw [hwoken] at hclaim
    cases hclaim
    exact happ
  | wake => exact ⟨trivial, trivial, trivial⟩
  | waitFails hm hawake =>
    obtain ⟨rfl, hdead⟩ := hg
    rcases RobustMutex.acquire_cases hm with ⟨-, rfl, -⟩ | ⟨hm, -⟩
    · simp [RegionPoint.awake, ipmConditionWait_eq_success_iff] at hawake
    · exact absurd hm hdead
  | @release _ t e hget hp he hlist =>
    obtain ⟨hown, hclean⟩ := (hg _ hget).2 hp e he
    rw [← hlist] at hown hclean
    cases hcall : t.call with
    | claimRegion hd access offset count =>
      rw [hcall] at he
      cases he
    | releaseRegion hd id =>
      rw [hcall] at he
      cases he
      obtain ⟨g, hg, hproc, hid⟩ := hown
      exact ⟨⟨g, hok.mem_iff.mp hg, hproc, hid⟩, trivial, hclean⟩
    | releaseAll hd =>
      rw [hcall] at he
      cases he
      exact ⟨trivial, trivial, hclean⟩
    | removeAllActiveClaims hd =>
      rw [hcall] at he
      cases he
      exact ⟨trivial, trivial, hclean⟩

/-- **Regions are exclusive, lock by lock**: in every clean run of threads no two listed claims of
different handles overlap, unless both only read. -/
theorem exclusive_of_cleanCalls {raw : ClaimList} {capacity : Nat} (hcap : capacity < 2 ^ 31)
    (hr : Reach (RegionSys.step b) (CleanCalls b) (init raw capacity) s) :
    ∀ x ∈ s.list.entries, ∀ y ∈ s.list.entries, x.procId ≠ y.procId →
      (x.access = .readWrite ∨ y.access = .readWrite) → ¬ x.Overlaps y := by
  have hstep : ∀ s a s' c, (Sim b s c ∧ c.ExclusionOk) → CleanCalls b s a →
      RegionSys.step b s a = some s' →
      ∃ c', Reach (ClaimSys.step b) (fun c e => c.Owned e ∧ e.InRange ∧ c.Clean b e) c c' ∧
        Sim b s' c' ∧ c'.ExclusionOk := by
    intro s a s' c ⟨h, hok⟩ hg hs
    obtain ⟨c', hans, hsim⟩ := h.step hg.orderly hs
    rcases hans with rfl | ⟨e, hends, he⟩
    · exact ⟨c', .init, hsim, hok⟩
    · obtain ⟨hown, hin, hclean⟩ := hends.clean hok.ledger hg
      exact ⟨c', .next .init ⟨hown, hin, hclean⟩ he, hsim, hok.step hown hin hclean he⟩
  obtain ⟨c, -, hsim, hok⟩ :=
    hr.simulation ⟨sim_init hcap, ClaimSys.exclusionOk_init hcap⟩ hstep
  intro x hx y hy
  rw [← hsim.list.1] at hx hy
  exact hok.mutualExclusion x (hok.ledger.mem_iff.mp hx) y (hok.ledger.mem_iff.mp hy)

/-- A test for `CleanCalls` on runs that only claim. -/
def claimsBehind (s : RegionSys) : RegionEvent → Bool
  | .call _ => true
  | .lock _ refused => refused.isNone
  | .step i => (s.threads[i]?).all fun t =>
    (decide (t.point ≠ .body) || (label t.call).isNone) &&
      t.point.trying.all fun claim =>
        decide (CallInRange t.call) && s.list.entries.all fun e => decide (e.offset ≤ claim.offset)
  | _ => false

theorem cleanCalls_of_claimsBehind (h : claimsBehind s a = true) : CleanCalls b s a := by
  cases a with
  | call call => trivial
  | lock i refused =>
    rw [claimsBehind, Option.isNone_iff_eq_none] at h
    subst h
    trivial
  | wake i code errno => cases h
  | die i left => cases h
  | step i =>
    intro t ht
    rw [claimsBehind, Option.mem_def.mp ht, Option.all_some, Bool.and_eq_true] at h
    obtain ⟨hbody, htry⟩ := h
    constructor
    · intro claim hp
      rw [hp, Option.all_some, Bool.and_eq_true] at htry
      refine ⟨of_decide_eq_true htry.1, fun _ e he => ?_⟩
      exact of_decide_eq_true (List.all_eq_true.mp htry.2 e he)
    · intro hp e he
      rw [hp, Option.mem_def.mp he] at hbody
      cases hbody

/-- Two readers, the second one in before the first one is out. -/
theorem exclusive_two_readers :
    ∃ s, Reach (RegionSys.step ⟨false⟩) (CleanCalls ⟨false⟩) (init zeroList pageCapacity) s ∧
      s.list.count = 2 ∧ ∀ x ∈ s.list.entries, ∀ y ∈ s.list.entries, x.procId ≠ y.procId →
        (x.access = .readWrite ∨ y.access = .readWrite) → ¬ x.Overlaps y := by
  have htrace : ∃ s, Reach (RegionSys.step ⟨false⟩) (CleanCalls ⟨false⟩)
      (init zeroList pageCapacity) s ∧ s.list.count = 2 :=
    exists_reach_of_trace (g := claimsBehind) (t := fun s => decide (s.list.count = 2))
      [.call (.claimRegion ⟨1, 4096, .readWrite⟩ .readOnly 0 32),
       .call (.claimRegion ⟨2, 4096, .readWrite⟩ .readOnly 16 32),
       .lock 0 none, .step 0, .step 0, .step 0, .step 0, .lock 1 none, .step 1, .step 1, .step 1]
      (fun _ _ => cleanCalls_of_claimsBehind) (fun _ h => of_decide_eq_true h) (by decide +kernel)
  obtain ⟨s, hr, hcount⟩ := htrace
  exact ⟨s, hr, hcount, exclusive_of_cleanCalls (by decide) hr⟩

end RegionSys

end Ipm
