import Ipm.Claim.Region

/-!
# The two purging loops

`ipm_memory_release_all` walks the array and removes its handle's entries through
`claim_remove_from_list`, which looks each one up again by id and shifts one slot too few.
`releaseAllLoop_ownTail` says when the result is nevertheless right: when the handle has nothing
listed behind which a foreign entry could be lost or doubled. That is `OwnTail`: no entry of the
handle at all, a single one in last place, or at least the last two places.

In the last case the loop does take the wrong branch and still ends right. Each short shift costs
the list its last entry, which is the handle's own, and doubles the one before it, which is the
handle's own too and is removed in a later turn.

`ipm_memory_remove_all_active_claims` only counts down, so `removeAllLoop_empties` asks for nothing
but the assertion.
-/

set_option autoImplicit false

namespace Ipm

open Lib

/-- The entries of `id` sit where removing them cannot touch a foreign one. -/
def OwnTail (id : UInt64) (E : List MemoryClaim) : Prop :=
  (∀ e ∈ E, e.procId ≠ id) ∨
  (∃ pre c, E = pre ++ [c] ∧ c.procId = id ∧ ∀ e ∈ pre, e.procId ≠ id) ∨
  (∃ pre c d, E = pre ++ [c, d] ∧ c.procId = id ∧ d.procId = id)

/-- Entries with the same claim id are the same handle's. -/
def IdsKeepProc (E : List MemoryClaim) : Prop :=
  ∀ a ∈ E, ∀ c ∈ E, a.claimId = c.claimId → a.procId = c.procId

/-- The other handles' entries. -/
def others (id : UInt64) (E : List MemoryClaim) : List MemoryClaim := E.filter (·.procId ≠ id)

theorem others_append (id : UInt64) (E F : List MemoryClaim) :
    others id (E ++ F) = others id E ++ others id F := List.filter_append ..

theorem others_eq_self {id : UInt64} {E : List MemoryClaim} (h : ∀ e ∈ E, e.procId ≠ id) :
    others id E = E := List.filter_eq_self.mpr fun e he => by simpa using h e he

theorem others_own {id : UInt64} {c : MemoryClaim} (h : c.procId = id) (E : List MemoryClaim) :
    others id (c :: E) = others id E := by
  simp [others, h]

/-! ## One removal at the first own entry -/

theorem mem_of_mem_shortTail {o e : MemoryClaim} {rest : List MemoryClaim}
    (h : e ∈ shortTail o rest) : e ∈ o :: rest := by
  rcases List.eq_nil_or_concat rest with rfl | ⟨front, y, rfl⟩
  · simp at h
  rw [List.concat_eq_append] at h ⊢
  rcases List.eq_nil_or_concat front with rfl | ⟨mid, z, rfl⟩
  · simp only [List.nil_append, shortTail_singleton, List.mem_singleton] at h
    simp [h]
  · rw [List.concat_eq_append, List.append_assoc, List.singleton_append, shortTail_append] at h
    simp only [List.mem_append, List.mem_cons, List.not_mem_nil, or_false, or_self] at h
    rcases h with h | rfl
    · simp [h]
    · simp

/-- Removing the first own entry keeps `OwnTail` and takes nothing from the others. -/
theorem OwnTail.shortTail {id : UInt64} {pre rest : List MemoryClaim} {o : MemoryClaim}
    (hpre : ∀ e ∈ pre, e.procId ≠ id) (ho : o.procId = id) (h : OwnTail id (pre ++ o :: rest)) :
    OwnTail id (pre ++ shortTail o rest) ∧
      others id (pre ++ Ipm.shortTail o rest) = others id (pre ++ o :: rest) := by
  rcases List.eq_nil_or_concat rest with rfl | ⟨front, y, rfl⟩
  · refine ⟨.inl (by simpa using hpre), ?_⟩
    rw [shortTail_nil, List.append_nil, others_append, others_own ho]
    exact (List.append_nil _).symm
  rw [List.concat_eq_append] at h ⊢
  -- `o` is own and not last, so the last two entries are own
  have htwo : ∃ p c d, pre ++ o :: (front ++ [y]) = p ++ [c, d] ∧ c.procId = id ∧ d.procId = id := by
    rcases h with h | ⟨p, c, heq, -, hp⟩ | h
    · exact absurd ho (h o (by simp))
    · have hcut : pre ++ o :: front = p := by
        have heq' : (pre ++ o :: front) ++ [y] = p ++ [c] := by simpa using heq
        exact (List.append_inj' heq' rfl).1
      exact absurd ho (hp o (by simp [← hcut]))
    · exact h
  obtain ⟨p, c, d, heq, hc, hd⟩ := htwo
  rcases List.eq_nil_or_concat front with rfl | ⟨mid, z, rfl⟩
  · have heq' : pre ++ [o, y] = p ++ [c, d] := by simpa using heq
    obtain ⟨rfl, hcd⟩ := List.append_inj' heq' rfl
    obtain ⟨rfl, rfl⟩ : o = c ∧ y = d := by simpa using hcd
    refine ⟨.inr (.inl ⟨pre, o, rfl, ho, hpre⟩), ?_⟩
    simp [others_append, others_own ho, others_own hd]
  · rw [List.concat_eq_append, List.append_assoc, List.singleton_append] at heq ⊢
    have heq' : (pre ++ o :: mid) ++ [z, y] = p ++ [c, d] := by simpa using heq
    obtain ⟨-, hcd⟩ := List.append_inj' heq' rfl
    obtain ⟨rfl, rfl⟩ : z = c ∧ y = d := by simpa using hcd
    rw [shortTail_append]
    refine ⟨.inr (.inr ⟨pre ++ mid, z, z, by simp, hc, hc⟩), ?_⟩
    simp [others_append, others_own ho, others_own hc, others_own hd]

/-! ## `ipm_memory_release_all` -/

theorem intOf_of_lt {n : Nat} (h : n < 2 ^ 31) : intOf n = (n : Int) := by
  have hmod : n % 2 ^ 32 = n := Nat.mod_eq_of_lt (by omega)
  rw [intOf, hmod, if_pos h]

/-- With no own entry from slot `i` on, the loop only walks. -/
theorem releaseAllLoop_none {b : Build} {id : UInt64} {l : ClaimList} (hcap : l.count < 2 ^ 31)
    (hnone : ∀ e ∈ l.entries, e.procId ≠ id) :
    ∀ (fuel i : Nat), l.count ≤ i + fuel → releaseAllLoop b id fuel i l = .ret () l := by
  intro fuel
  induction fuel with
  | zero =>
    intro i hi
    rw [releaseAllLoop, intOf_of_lt hcap, if_neg (by omega)]
  | succ fuel ih =>
    intro i hi
    rw [releaseAllLoop, intOf_of_lt hcap]
    split
    · rename_i hlt
      have hne : (l.claims i).procId ≠ id :=
        hnone _ (ClaimList.mem_entries.mpr ⟨i, by omega, rfl⟩)
      rw [if_neg hne]
      exact ih (i + 1) (by omega)
    · rfl

/-- However the walk ends, the list has not grown and its capacity is what it was. -/
theorem releaseAllLoop_shared {b : Build} {id : UInt64} :
    ∀ (fuel i : Nat) (l : ClaimList), l.count < 2 ^ 31 →
      (releaseAllLoop b id fuel i l).shared.count ≤ l.count ∧
        (releaseAllLoop b id fuel i l).shared.capacity = l.capacity := by
  intro fuel
  induction fuel with
  | zero =>
    intro i l _
    rw [releaseAllLoop]
    split <;> exact ⟨le_rfl, rfl⟩
  | succ fuel ih =>
    intro i l hcount
    rw [releaseAllLoop, intOf_of_lt hcount]
    split
    · rename_i hlt
      split
      · obtain ⟨hc, hcap⟩ := claimRemoveFromList_shared b (l.claims i).claimId
          (show 0 < l.count by omega) hcount
        cases hrun : claimRemoveFromList b (l.claims i).claimId l with
        | ret res l' =>
          rw [hrun, Outcome.shared_ret] at hc hcap
          obtain ⟨hc', hcap'⟩ := ih i l' (by omega)
          exact ⟨by rw [Outcome.andThen_ret]; omega, by rw [Outcome.andThen_ret]; exact hcap'.trans hcap⟩
        | stop w l' =>
          rw [hrun, Outcome.shared_stop] at hc hcap
          exact ⟨by rw [Outcome.andThen_stop, Outcome.shared_stop]; omega, hcap⟩
      · exact ih (i + 1) l hcount
    · exact ⟨le_rfl, rfl⟩

/-- The walk ends: a turn goes one slot on or makes the list one entry shorter. -/
theorem releaseAllLoop_ne_spin {b : Build} {id : UInt64} :
    ∀ (fuel i : Nat) (l l' : ClaimList), l.count < 2 ^ 31 → l.count ≤ i + fuel →
      releaseAllLoop b id fuel i l ≠ .stop .spin l' := by
  intro fuel
  induction fuel with
  | zero =>
    intro i l l' hcount hi
    rw [releaseAllLoop, intOf_of_lt hcount, if_neg (by omega)]
    exact nofun
  | succ fuel ih =>
    intro i l l' hcount hi
    rw [releaseAllLoop, intOf_of_lt hcount]
    split
    · rename_i hlt
      split
      · obtain ⟨hc, -⟩ := claimRemoveFromList_shared b (l.claims i).claimId
          (show 0 < l.count by omega) hcount
        have hspin := claimRemoveFromList_ne_spin b (l.claims i).claimId l
        cases hrun : claimRemoveFromList b (l.claims i).claimId l with
        | ret res l₁ =>
          rw [hrun, Outcome.shared_ret] at hc
          exact ih i l₁ l' (by omega) (by omega)
        | stop w l₁ =>
          rw [hrun] at hspin
          intro h
          cases h
          exact hspin _ rfl
      · exact ih (i + 1) l l' hcount (by omega)
    · exact nofun

/-- **One removal of the loop**: the first own entry is the first with its id as well, since the slots
before it are foreign. It goes, the slots before it stay, and nothing comes in. -/
theorem claimRemoveFromList_firstOwn {b : Build} {id : UInt64} {l : ClaimList} {i : Nat}
    (hle : l.count ≤ l.capacity) (hcap : l.capacity < 2 ^ 31)
    (hassert : b.ndebug = true ∨ l.count < l.capacity) (hids : IdsKeepProc l.entries)
    (hpre : ∀ j < i, (l.claims j).procId ≠ id) (hlt : i < l.count)
    (hown : (l.claims i).procId = id) :
    claimRemoveFromList b (l.claims i).claimId l = .ret .success (l.dropAt i) ∧
      (∀ e ∈ (l.dropAt i).entries, e ∈ l.entries) ∧
      ∀ j < i, ((l.dropAt i).claims j).procId ≠ id := by
  have hfirst : ∀ j < i, (l.claims j).claimId ≠ (l.claims i).claimId := by
    intro j hj hid
    have hproc := hids _ (ClaimList.mem_entries.mpr ⟨j, by omega, rfl⟩) _
      (ClaimList.mem_entries.mpr ⟨i, hlt, rfl⟩) hid
    exact hpre j hj (hproc.trans hown)
  refine ⟨claimRemoveFromList_found hle hcap hassert hlt rfl hfirst, ?_, ?_⟩
  · intro e he
    obtain ⟨rest, hcut⟩ := ClaimList.entries_cut hlt
    have hdrop := ClaimList.entries_dropAt hcut
    rw [length_window] at hdrop
    rw [hdrop] at he
    rw [hcut]
    rcases List.mem_append.mp he with he | he
    · exact List.mem_append_left _ he
    · exact List.mem_append_right _ (mem_of_mem_shortTail he)
  · intro j hj
    rw [show (l.dropAt i).claims j = l.claims j from if_neg (by omega)]
    exact hpre j hj

/-- **The purge is right on an `OwnTail`**: from slot `i`, with no own entry before it, the loop
ends within `count - i` turns and leaves exactly the other handles' entries. -/
theorem releaseAllLoop_ownTail {b : Build} {id : UInt64} :
    ∀ (fuel i : Nat) (l : ClaimList), l.count ≤ l.capacity → l.capacity < 2 ^ 31 →
      (b.ndebug = true ∨ l.count < l.capacity) → IdsKeepProc l.entries →
      OwnTail id l.entries → (∀ j < i, (l.claims j).procId ≠ id) → l.count ≤ i + fuel →
      ∃ l', releaseAllLoop b id fuel i l = .ret () l' ∧ l'.entries = others id l.entries ∧
        l'.capacity = l.capacity := by
  intro fuel
  induction fuel with
  | zero =>
    intro i l hle hcap _ _ _ hpre hi
    refine ⟨l, by rw [releaseAllLoop, intOf_of_lt (by omega), if_neg (by omega)], ?_, rfl⟩
    refine (others_eq_self fun e he => ?_).symm
    obtain ⟨j, hj, rfl⟩ := ClaimList.mem_entries.mp he
    exact hpre j (by omega)
  | succ fuel ih =>
    intro i l hle hcap hassert hids htail hpre hi
    rw [releaseAllLoop, intOf_of_lt (by omega)]
    by_cases hlt : i < l.count
    · rw [if_pos (by omega)]
      obtain ⟨rest, hcut⟩ := ClaimList.entries_cut hlt
      have hpre' : ∀ e ∈ window l.claims i, e.procId ≠ id := by
        intro e he
        obtain ⟨j, hj, rfl⟩ := mem_window.mp he
        exact hpre j hj
      by_cases hown : (l.claims i).procId = id
      · rw [if_pos hown]
        obtain ⟨hrun, hmem, hslots⟩ :=
          claimRemoveFromList_firstOwn hle hcap hassert hids hpre hlt hown
        rw [hrun, Outcome.andThen_ret]
        have hdrop := ClaimList.entries_dropAt hcut
        rw [length_window] at hdrop
        rw [hcut] at htail
        obtain ⟨htail', hothers⟩ := htail.shortTail hpre' hown
        obtain ⟨l', hrest, hent, hcap'⟩ := ih i (l.dropAt i) (by simp; omega) hcap
          (.inr (by simp; omega)) (fun a ha c hc => hids a (hmem a ha) c (hmem c hc))
          (by rw [hdrop]; exact htail') hslots (by simp; omega)
        exact ⟨l', hrest, by rw [hent, hdrop, hothers, hcut], hcap'⟩
      · rw [if_neg hown]
        refine ih (i + 1) l hle hcap hassert hids htail (fun j hj => ?_) (by omega)
        rcases Nat.lt_succ_iff_lt_or_eq.mp hj with hj | rfl
        · exact hpre j hj
        · exact hown
    · rw [if_neg (by omega)]
      refine ⟨l, rfl, (others_eq_self fun e he => ?_).symm, rfl⟩
      obtain ⟨j, hj, rfl⟩ := ClaimList.mem_entries.mp he
      exact hpre j (by omega)

/-! ### Turn by turn -/

/-- One turn of the loop, from index `i` and list `l`. A turn that removes finds what it removes. -/
inductive PurgeTurn (b : Build) (id : UInt64) (i : Nat) (l : ClaimList) : Nat → ClaimList → Prop
  | skip (hlt : (i : Int) < intOf l.count) (hother : (l.claims i).procId ≠ id) :
      PurgeTurn b id i l (i + 1) l
  | remove {l' : ClaimList} (hlt : (i : Int) < intOf l.count) (hown : (l.claims i).procId = id)
      (hlisted : ∃ e ∈ l.entries, e.claimId = (l.claims i).claimId)
      (hrun : claimRemoveFromList b (l.claims i).claimId l = .ret .success l')
      (hcount : l'.count + 1 = l.count) : PurgeTurn b id i l i l'

/-- `n` turns, after which the loop is over. -/
inductive PurgeRun (b : Build) (id : UInt64) : Nat → Nat → ClaimList → ClaimList → Prop
  | done {i : Nat} {l : ClaimList} (h : ¬ (i : Int) < intOf l.count) : PurgeRun b id 0 i l l
  | turn {n i i' : Nat} {l l' l'' : ClaimList} (h : PurgeTurn b id i l i' l')
      (hrest : PurgeRun b id n i' l' l'') : PurgeRun b id (n + 1) i l l''

/-- The loop makes these turns and no others. -/
theorem PurgeRun.loop {b : Build} {id : UInt64} {n i : Nat} {l l' : ClaimList}
    (h : PurgeRun b id n i l l') :
    (∀ fuel, n ≤ fuel → releaseAllLoop b id fuel i l = .ret () l') ∧
      ∀ fuel < n, ∃ left, releaseAllLoop b id fuel i l = .stop .spin left := by
  induction h with
  | done hover =>
    refine ⟨fun fuel _ => ?_, fun fuel hlt => absurd hlt (Nat.not_lt_zero _)⟩
    cases fuel with
    | zero => exact if_neg hover
    | succ fuel => exact if_neg hover
  | @turn n i i' l l₁ l₂ hturn hrest ih =>
    -- a turn costs one of the fuel, whichever it is
    have hstep : ∀ fuel, releaseAllLoop b id (fuel + 1) i l = releaseAllLoop b id fuel i' l₁ := by
      intro fuel
      cases hturn with
      | skip hlt hother => rw [releaseAllLoop, if_pos hlt, if_neg hother]
      | remove hlt hown hlisted hrun hcount =>
        rw [releaseAllLoop, if_pos hlt, if_pos hown, hrun, Outcome.andThen_ret]
    have hguard : (i : Int) < intOf l.count := by
      cases hturn with
      | skip hlt hother => exact hlt
      | remove hlt hown hlisted hrun hcount => exact hlt
    refine ⟨fun fuel hle => ?_, fun fuel hlt => ?_⟩
    · cases fuel with
      | zero => exact absurd hle (Nat.not_succ_le_zero n)
      | succ fuel =>
        rw [hstep]
        exact ih.1 fuel (Nat.le_of_succ_le_succ hle)
    · cases fuel with
      | zero => exact ⟨l, if_pos hguard⟩
      | succ fuel =>
        rw [hstep]
        exact ih.2 fuel (Nat.lt_of_succ_lt_succ hlt)

/-- The turns from slot `i` on, with no own entry before it: as many as there are slots left. -/
theorem exists_purgeRun {b : Build} {id : UInt64} :
    ∀ (n i : Nat) (l : ClaimList), l.count = i + n → l.count < l.capacity → l.capacity < 2 ^ 31 →
      IdsKeepProc l.entries → (∀ j < i, (l.claims j).procId ≠ id) →
      ∃ l', PurgeRun b id n i l l' ∧ (∀ e ∈ l'.entries, e.procId ≠ id) ∧
        ∀ e ∈ l'.entries, e ∈ l.entries := by
  intro n
  induction n with
  | zero =>
    intro i l hcount hroom hcap _ hpre
    refine ⟨l, .done ?_, ?_, fun e he => he⟩
    · rw [intOf_of_lt (by omega)]
      omega
    · intro e he
      obtain ⟨j, hj, rfl⟩ := ClaimList.mem_entries.mp he
      exact hpre j (by omega)
  | succ n ih =>
    intro i l hcount hroom hcap hids hpre
    have hlt : i < l.count := by omega
    have hguard : (i : Int) < intOf l.count := by
      rw [intOf_of_lt (by omega)]
      omega
    by_cases hown : (l.claims i).procId = id
    · obtain ⟨hrun, hmem, hslots⟩ := claimRemoveFromList_firstOwn (b := b) hroom.le hcap (.inr hroom)
        hids hpre hlt hown
      have hids' : IdsKeepProc (l.dropAt i).entries :=
        fun a ha c hc => hids a (hmem a ha) c (hmem c hc)
      obtain ⟨l', hrest, hnone, hfrom⟩ := ih i (l.dropAt i) (by simp; omega) (by simp; omega) hcap
        hids' hslots
      refine ⟨l', .turn (.remove hguard hown ?_ hrun ?_) hrest, hnone,
        fun e he => hmem e (hfrom e he)⟩
      · exact ⟨_, ClaimList.mem_entries.mpr ⟨i, hlt, rfl⟩, rfl⟩
      · rw [ClaimList.dropAt_count]
        omega
    · have hpre' : ∀ j < i + 1, (l.claims j).procId ≠ id := by
        intro j hj
        rcases Nat.lt_succ_iff_lt_or_eq.mp hj with hj | rfl
        · exact hpre j hj
        · exact hown
      obtain ⟨l', hrest, hnone, hfrom⟩ := ih (i + 1) l (by omega) hroom hcap hids hpre'
      exact ⟨l', .turn (.skip hguard hown) hrest, hnone, hfrom⟩

/-- **`ipm_memory_release_all` ends and purges**: it takes exactly `count` turns, each of them one
slot on or one entry less, removes nothing that is not there, and leaves only entries of others. -/
theorem releaseAll_purges {b : Build} {l : ClaimList} {id : UInt64} (hroom : l.count < l.capacity)
    (hcap : l.capacity ≤ 2 ^ 31 - 1) (hids : IdsKeepProc l.entries) :
    ∃ l', PurgeRun b id l.count 0 l l' ∧
      (∀ fuel, releaseAllLoop b id fuel 0 l = .ret () l' ↔ l.count ≤ fuel) ∧
      ipmMemoryReleaseAll b .success id l = .ret .success l' ∧
      (∀ e ∈ l'.entries, e.procId ≠ id) ∧ ∀ e ∈ l'.entries, e ∈ l.entries := by
  obtain ⟨l', hrun, hnone, hfrom⟩ := @exists_purgeRun b id l.count 0 l
    (Nat.zero_add _).symm hroom (by omega) hids fun j hj => absurd hj (Nat.not_lt_zero j)
  obtain ⟨henough, hless⟩ := hrun.loop
  refine ⟨l', hrun, fun fuel => ⟨fun hret => ?_, henough fuel⟩, ?_, hnone, hfrom⟩
  · by_contra hlt
    obtain ⟨left, hspin⟩ := hless fuel (Nat.lt_of_not_le hlt)
    rw [hspin] at hret
    cases hret
  · rw [ipmMemoryReleaseAll, if_neg (not_not.mpr rfl), henough _ le_rfl]
    rfl

/-- Three claims: the first and the last are handle 1's. -/
def mixedList : ClaimList :=
  { zeroList with count := 3
                  capacity := pageCapacity
                  claims := fun i => { claimId := .ofNat i, procId := if i = 1 then 2 else 1
                                       access := .readOnly, offset := 0, size := 16 } }

theorem releaseAll_purges_mixed :
    IdsKeepProc mixedList.entries ∧
    ∃ l', PurgeRun ⟨false⟩ 1 3 0 mixedList l' ∧
      (∀ fuel, releaseAllLoop ⟨false⟩ 1 fuel 0 mixedList = .ret () l' ↔ 3 ≤ fuel) ∧
      ipmMemoryReleaseAll ⟨false⟩ .success 1 mixedList = .ret .success l' ∧
      (∀ e ∈ l'.entries, e.procId ≠ 1) ∧ ∀ e ∈ l'.entries, e ∈ mixedList.entries := by
  have hids : IdsKeepProc mixedList.entries := by
    unfold IdsKeepProc
    decide
  exact ⟨hids, releaseAll_purges (by decide) (by decide) hids⟩

/-! ## `ipm_memory_remove_all_active_claims` -/

/-- A listed id is found, wherever its first occurrence is. -/
theorem claimRemoveFromList_mem {b : Build} {l : ClaimList} {id : UInt64}
    (hle : l.count ≤ l.capacity) (hcap : l.capacity < 2 ^ 31)
    (hassert : b.ndebug = true ∨ l.count < l.capacity) (hid : ∃ e ∈ l.entries, e.claimId = id) :
    ∃ p < l.count, claimRemoveFromList b id l = .ret .success (l.dropAt p) := by
  obtain ⟨e, he, hid⟩ := hid
  obtain ⟨i, hi, rfl⟩ := ClaimList.mem_entries.mp he
  have hlt : scan (fun c => decide (c.claimId = id)) l.claims 0 l.count < 0 + l.count := by
    rcases Nat.lt_or_eq_of_le (scan_le (fun c => decide (c.claimId = id)) l.claims 0 l.count)
      with h | h
    · exact h
    · have hall := scan_eq_end_iff.mp (h.trans (Nat.zero_add _)) _ he
      simp [hid] at hall
  refine ⟨_, by simpa using hlt, claimRemoveFromList_found hle hcap hassert (by simpa using hlt)
    (by simpa using scan_hit hlt) fun j hj => ?_⟩
  simpa using scan_before (Nat.zero_le j) hj

theorem removeAllLoop_shared {b : Build} :
    ∀ (fuel : Nat) (l : ClaimList), l.count < 2 ^ 31 →
      (removeAllLoop b fuel l).shared.count ≤ l.count ∧
        (removeAllLoop b fuel l).shared.capacity = l.capacity := by
  intro fuel
  induction fuel with
  | zero =>
    intro l _
    rw [removeAllLoop]
    split <;> exact ⟨le_rfl, rfl⟩
  | succ fuel ih =>
    intro l hcount
    rw [removeAllLoop]
    split
    · rename_i hne
      obtain ⟨hc, hcap⟩ := claimRemoveFromList_shared b (l.claims (l.count - 1)).claimId
        (show 0 < l.count by omega) hcount
      cases hrun : claimRemoveFromList b (l.claims (l.count - 1)).claimId l with
      | ret res l' =>
        rw [hrun, Outcome.shared_ret] at hc hcap
        obtain ⟨hc', hcap'⟩ := ih l' (by omega)
        exact ⟨by rw [Outcome.andThen_ret]; omega, by rw [Outcome.andThen_ret]; exact hcap'.trans hcap⟩
      | stop w l' =>
        rw [hrun, Outcome.shared_stop] at hc hcap
        exact ⟨by rw [Outcome.andThen_stop, Outcome.shared_stop]; omega, hcap⟩
    · exact ⟨le_rfl, rfl⟩

/-- The countdown ends. -/
theorem removeAllLoop_ne_spin {b : Build} :
    ∀ (fuel : Nat) (l l' : ClaimList), l.count < 2 ^ 31 → l.count ≤ fuel →
      removeAllLoop b fuel l ≠ .stop .spin l' := by
  intro fuel
  induction fuel with
  | zero =>
    intro l l' _ hf
    rw [removeAllLoop, if_neg (by omega)]
    exact nofun
  | succ fuel ih =>
    intro l l' hcount hf
    rw [removeAllLoop]
    split
    · obtain ⟨hc, -⟩ := claimRemoveFromList_shared b (l.claims (l.count - 1)).claimId
        (show 0 < l.count by omega) hcount
      have hspin := claimRemoveFromList_ne_spin b (l.claims (l.count - 1)).claimId l
      cases hrun : claimRemoveFromList b (l.claims (l.count - 1)).claimId l with
      | ret res l₁ =>
        rw [hrun, Outcome.shared_ret] at hc
        exact ih l₁ l' (by omega) (by omega)
      | stop w l₁ =>
        rw [hrun] at hspin
        intro h
        cases h
        exact hspin _ rfl
    · exact nofun

theorem removeAllLoop_empties {b : Build} :
    ∀ (fuel : Nat) (l : ClaimList), l.count ≤ l.capacity → l.capacity < 2 ^ 31 →
      (b.ndebug = true ∨ l.count < l.capacity) → l.count ≤ fuel →
      ∃ l', removeAllLoop b fuel l = .ret () l' ∧ l'.entries = [] ∧ l'.capacity = l.capacity := by
  intro fuel
  induction fuel with
  | zero =>
    intro l _ _ _ hf
    have hzero : l.count = 0 := by omega
    exact ⟨l, by simp [removeAllLoop, hzero], by simp [ClaimList.entries, hzero], rfl⟩
  | succ fuel ih =>
    intro l hle hcap hassert hf
    by_cases hzero : l.count = 0
    · exact ⟨l, by simp [removeAllLoop, hzero], by simp [ClaimList.entries, hzero], rfl⟩
    · obtain ⟨p, hp, hrun⟩ := claimRemoveFromList_mem (b := b) hle hcap hassert
        ⟨_, ClaimList.mem_entries.mpr ⟨l.count - 1, by omega, rfl⟩, rfl⟩
      obtain ⟨l', hrest, hent, hcap'⟩ := ih (l.dropAt p) (by simp; omega) hcap
        (.inr (by simp; omega)) (by simp; omega)
      refine ⟨l', ?_, hent, hcap'⟩
      rw [removeAllLoop, if_pos hzero, hrun, Outcome.andThen_ret]
      exact hrest

end Ipm
