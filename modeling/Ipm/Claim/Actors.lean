import Ipm.Claim.Ledger

/-!
# Who changes the ledger

Every label but two belongs to one handle: its own call, or the waking up of its own request. Such a
step grants at most one claim, to that handle, or takes claims from that handle alone
(`granted_cases`). A signal changes nothing in the ledger, and
`ipm_memory_remove_all_active_claims` empties it.
-/

set_option autoImplicit false

namespace Ipm

open Lib

namespace ClaimSys

/-- The handle whose call or request makes the step. -/
def actor (s : ClaimSys) : ClaimEvent → Option UInt64
  | .claim h _ _ _ _ => some h.accessId
  | .recheck i => (s.woken[i]?).map (·.procId)
  | .waitFails i => (s.waiting[i]?).map (·.procId)
  | .spurious i => (s.waiting[i]?).map (·.procId)
  | .signal _ => none
  | .releaseRegion h _ _ => some h.accessId
  | .releaseAll h _ => some h.accessId
  | .removeAll _ => none
  | .close h _ => some h.accessId

/-- What a step of `actor` does to the ledger. -/
inductive LedgerMove (actor : Option UInt64) (a : ClaimEvent) (M : List MemoryClaim) :
    List MemoryClaim → Prop
  | keep : LedgerMove actor a M M
  | grant (c : MemoryClaim) (hact : actor = some c.procId) : LedgerMove actor a M (c :: M)
  | giveBack {N : List MemoryClaim} (id : UInt64) (hact : actor = some id) (hsub : N.Sublist M)
      (hothers : others id N = others id M) : LedgerMove actor a M N
  | clear {lock : IpmResult} (ha : a = .removeAll lock) : LedgerMove actor a M []

variable {b : Build} {s s' : ClaimSys} {a : ClaimEvent} {claim : MemoryClaim}
variable {M N : List MemoryClaim} {p : Option UInt64}

/-- A critical section that ends in one of two entries of the ledger. -/
theorem granted_settle {α : Type} {o : Outcome ClaimList α} {k : α → ClaimSys → ClaimSys}
    (hs : s.settle o k = some s') (hkeep : LedgerMove p a s.granted s.granted)
    (hk : ∀ r l, LedgerMove p a s.granted (k r { s with list := l }).granted) :
    LedgerMove p a s.granted s'.granted := by
  cases o with
  | ret r l => cases hs; exact hk r l
  | stop w l =>
    cases w with
    | assertion => cases hs; exact hkeep
    | fault => cases hs
    | spin => cases hs

theorem granted_turn (hs : turn b claim s = some s') (hact : p = some claim.procId) :
    LedgerMove p a s.granted s'.granted := by
  refine granted_settle hs .keep fun res l => ?_
  cases res with
  | none => exact .keep
  | some res =>
    cases res
    case success => exact .grant claim hact
    all_goals exact .keep

theorem granted_purge {lock : IpmResult} {id : UInt64} (hs : purge b lock id s = some s')
    (hact : p = some id) : LedgerMove p a s.granted s'.granted := by
  refine granted_settle hs .keep fun res l => ?_
  split
  · exact .giveBack id hact List.filter_sublist (by simp [others])
  · exact .keep

/-- Taking one claim of a handle leaves the claims of the others. -/
theorem others_eraseP {id : UInt64} {q : MemoryClaim → Bool} (hq : ∀ c, q c = true → c.procId = id)
    (l : List MemoryClaim) : others id (l.eraseP q) = others id l := by
  induction l with
  | nil => rfl
  | cons c l ih =>
    cases hc : q c with
    | true =>
      rw [List.eraseP_cons_of_pos hc]
      simp [others, hq c hc]
    | false =>
      rw [List.eraseP_cons_of_neg (by simp [hc])]
      simp only [others, List.filter_cons] at ih ⊢
      rw [ih]

/-- **What a step does to the ledger**, and whose step it is. -/
theorem granted_cases (hs : ClaimSys.step b s a = some s') :
    LedgerMove (s.actor a) a s.granted s'.granted := by
  cases a with
  | claim h lock access offset count =>
    simp only [ClaimSys.step] at hs
    split at hs
    · cases hs; exact .keep
    split at hs
    · cases hs; exact .keep
    split at hs
    · cases hs; exact .keep
    · have hmove := granted_turn (p := some h.accessId) (a := .claim h lock access offset count) hs rfl
      exact hmove
  | recheck i =>
    obtain ⟨claim, hget, hturn⟩ := Option.bind_eq_some_iff.mp hs
    have hmove := granted_turn (p := s.actor (.recheck i)) (a := .recheck i) hturn
      (by simp [actor, hget])
    exact hmove
  | waitFails i =>
    obtain ⟨claim, hget, rfl⟩ := Option.map_eq_some_iff.mp hs
    exact .grant claim (by simp [actor, hget])
  | spurious i =>
    obtain ⟨claim, -, rfl⟩ := Option.map_eq_some_iff.mp hs
    exact .keep
  | signal i =>
    simp only [ClaimSys.step] at hs
    split at hs
    · cases hs
    split at hs
    · cases hs; exact .keep
    · obtain ⟨claim, -, rfl⟩ := Option.map_eq_some_iff.mp hs
      exact .keep
  | releaseRegion h lock claimId =>
    simp only [ClaimSys.step, ClaimSys.giveBack] at hs
    refine granted_settle hs .keep fun res l => ?_
    split
    · refine .giveBack h.accessId rfl List.eraseP_sublist (others_eraseP (fun c hc => ?_) _)
      exact (of_decide_eq_true hc).1
    · exact .keep
  | removeAll lock =>
    simp only [ClaimSys.step, ClaimSys.clear] at hs
    refine granted_settle hs .keep fun res l => ?_
    split
    · exact .clear rfl
    · exact .keep
  | releaseAll h lock => exact granted_purge hs rfl
  | close h lock => exact granted_purge hs rfl

/-- At most one claim comes, and any may go. -/
theorem LedgerMove.cons_or_sublist (h : LedgerMove p a M N) :
    (∃ c, N = c :: M) ∨ N.Sublist M := by
  cases h with
  | keep => exact .inr (List.Sublist.refl _)
  | grant c => exact .inl ⟨c, rfl⟩
  | giveBack id hact hsub => exact .inr hsub
  | clear => exact .inr (List.nil_sublist _)

/-- **The claims of handles that do not move stay**, unless all claims are removed. -/
theorem LedgerMove.filter_eq (h : LedgerMove p a M N) {q : MemoryClaim → Bool}
    (hq : ∀ c, p = some c.procId → q c = false) (ha : ∀ lock, a ≠ .removeAll lock) :
    N.filter q = M.filter q := by
  cases h with
  | keep => rfl
  | grant c hact => rw [List.filter_cons, if_neg (by simp [hq c hact])]
  | giveBack id hact hsub hothers =>
    have hsplit : ∀ l : List MemoryClaim, (others id l).filter q = l.filter q := by
      intro l
      rw [others, List.filter_filter]
      refine List.filter_congr fun c _ => ?_
      by_cases hc : c.procId = id
      · simp [hq c (by rw [hc]; exact hact)]
      · simp [hc]
    rw [← hsplit N, hothers, hsplit M]
  | clear hrem => exact absurd hrem (ha _)

/-- Before anything has been claimed. -/
theorem exclusionOk_init {raw : ClaimList} {capacity : Nat} (hcap : capacity < 2 ^ 31) :
    ExclusionOk (init raw capacity) := by
  refine ⟨ledgerOk_init hcap, compatible_zero, fun c hc => ?_⟩
  simp [requests, init] at hc

end ClaimSys

end Ipm
