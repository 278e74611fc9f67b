import Ipm.Claim.Actors
import Ipm.Lib.Serial
import Ipm.Lib.Stamps

/-!
# Coherent access

What the claims are for. The bytes of the block are there for everybody who has it mapped, and no
access is checked; callers are to touch a byte only under a claim of theirs that covers it, and to
write it only under one with write access. Here are the bytes, beside the claim system, with every
access one step of its own.

Kept beside the program are the number of steps so far, for every granted claim the step it was
granted in, and a log of the accesses, each with the claim it was made under.

In a clean run of callers who keep to that, a claim is a section nobody else can see into:
`serializable_of_disciplined` reads the log claim by claim, in the order in which the claims were
granted, and gets the same values read and the same bytes at the end. `unchanged_of_held` is what a
single holder sees of it.
-/

set_option autoImplicit false

namespace Ipm

open Lib

/-- One access to the bytes of a block, and the claim it was made under. -/
structure Touch where
  stamp : Nat
  claim : MemoryClaim
  access : Access Nat UInt8
  deriving DecidableEq, Repr

/-- The claims of a block and its bytes. -/
structure ByteSys where
  claims : ClaimSys
  bytes : Nat → UInt8
  clock : Nat
  held : List (Nat × MemoryClaim)
  log : List Touch

inductive ByteEvent where
  | region (a : ClaimEvent)
  /-- The holder of granted claim `i` reads byte `x` of the block. -/
  | read (i x : Nat)
  /-- The holder of granted claim `i` writes it. -/
  | write (i x : Nat) (v : UInt8)
  deriving DecidableEq, Repr

instance MemoryClaim.decidableCovers (c : MemoryClaim) (x : Nat) : Decidable (c.Covers x) :=
  inferInstanceAs (Decidable (_ ∧ _))

namespace ByteSys

def step (b : Build) (s : ByteSys) : ByteEvent → Option ByteSys
  | .region a =>
    (s.claims.step b a).map fun claims =>
      { s with claims := claims, clock := s.clock + 1,
               held := restamp s.clock s.held claims.granted }
  | .read i x =>
    (s.held[i]?).map fun e => { s with log := s.log ++ [⟨e.1, e.2, .read x (s.bytes x)⟩] }
  | .write i x v =>
    (s.held[i]?).map fun e =>
      { s with bytes := Function.update s.bytes x v, log := s.log ++ [⟨e.1, e.2, .write x v⟩] }

/-- A fresh claim list, over whatever bytes there are. -/
def init (raw : ClaimList) (capacity : Nat) (bytes : Nat → UInt8) : ByteSys :=
  { claims := .init raw capacity, bytes := bytes, clock := 0, held := [], log := [] }

/-- No other claim of the holder of claim `i` covers the byte. -/
def Alone (s : ByteSys) (i x : Nat) : Prop :=
  ∀ e ∈ s.held[i]?, ∀ d ∈ s.held.eraseIdx i, d.2.procId = e.2.procId → ¬ d.2.Covers x

instance (s : ByteSys) (i x : Nat) : Decidable (s.Alone i x) :=
  inferInstanceAs (Decidable (∀ e ∈ s.held[i]?, ∀ d ∈ s.held.eraseIdx i,
    d.2.procId = e.2.procId → ¬ d.2.Covers x))

/-- The callers' side: bytes are touched under a claim that allows it, and the claim calls make a
clean run of in-range requests. -/
def Disciplined (b : Build) (s : ByteSys) : ByteEvent → Prop
  | .region a => s.claims.Owned a ∧ a.InRange ∧ s.claims.Clean b a
  | .read i x => s.Alone i x ∧ ∀ e ∈ s.held[i]?, e.2.Covers x
  | .write i x _ => s.Alone i x ∧ ∀ e ∈ s.held[i]?, e.2.Covers x ∧ e.2.access = .readWrite

/-! ## The invariant -/

/-- An access that a holder of `c` does not notice, and that does not notice it. -/
def Unseen (c : MemoryClaim) (t : Touch) : Prop :=
  c.Covers t.access.addr → c.access = .readOnly ∧ t.access.writes = false

/-- What holds between any two steps of a disciplined run. -/
structure CoherenceOk (bytes₀ : Nat → UInt8) (s : ByteSys) : Prop where
  exclusion : s.claims.ExclusionOk
  held : s.held.map Prod.snd = s.claims.granted
  newest : s.held.Pairwise fun e d => d.1 < e.1
  stamped : ∀ e ∈ s.held, e.1 < s.clock
  logged : ∀ t ∈ s.log, t.stamp < s.clock
  -- a stamp stands for one claim
  named : ∀ t ∈ s.log, ∀ e ∈ s.held, e.1 = t.stamp → e.2 = t.claim
  alike : ∀ t ∈ s.log, ∀ u ∈ s.log, t.stamp = u.stamp → t.claim = u.claim
  writable : ∀ t ∈ s.log, t.access.writes = true → t.claim.access = .readWrite
  -- what has been done under a later claim is nothing to an earlier one that is still there
  unseen : ∀ t ∈ s.log, ∀ e ∈ s.held, e.1 < t.stamp → Unseen e.2 t
  ordered : SectionOrder Touch.stamp Touch.access s.log
  replayed : replay Touch.access bytes₀ s.log = some s.bytes

variable {b : Build} {s s' : ByteSys} {bytes₀ : Nat → UInt8} {i j x : Nat} {v : UInt8}
variable {e d : Nat × MemoryClaim} {a : ClaimEvent} {t : Touch} {access : Access Nat UInt8}

theorem CoherenceOk.mem_granted (h : CoherenceOk bytes₀ s) (he : e ∈ s.held) :
    e.2 ∈ s.claims.granted := by
  rw [← h.held]
  exact List.mem_map_of_mem he

/-- Stamps tell the claims apart. -/
theorem CoherenceOk.stamp_inj (h : CoherenceOk bytes₀ s) (he : e ∈ s.held) (hd : d ∈ s.held)
    (hed : e.1 = d.1) : e = d := by
  have hsymm : Std.Symm fun e d : Nat × MemoryClaim => e.1 = d.1 → e = d :=
    ⟨fun _ _ himp heq => (himp heq.symm).symm⟩
  have hne := h.newest.imp (S := fun e d => e.1 = d.1 → e = d) fun hlt heq => by omega
  exact List.Pairwise.forall_of_forall (fun _ _ _ => rfl) hne he hd hed

/-! ## An access -/

/-- The access is made under claim `i`, which allows it, and under no other claim of its holder. -/
structure Allowed (s : ByteSys) (i : Nat) (e : Nat × MemoryClaim) (access : Access Nat UInt8) :
    Prop where
  held : s.held[i]? = some e
  alone : s.Alone i access.addr
  covers : e.2.Covers access.addr
  writable : access.writes = true → e.2.access = .readWrite

/-- **Nobody else's claim has anything to do with it.** Claims of other handles exclude each other,
and the holder has no second claim there. -/
theorem CoherenceOk.unseen_touch (h : CoherenceOk bytes₀ s) (ha : s.Allowed i e access)
    (hd : d ∈ s.held) (hne : d.1 ≠ e.1) : Unseen d.2 ⟨e.1, e.2, access⟩ := by
  intro hcov
  have hproc : d.2.procId ≠ e.2.procId := by
    intro hproc
    obtain ⟨j, hj⟩ := List.mem_iff_getElem?.mp hd
    refine ha.alone e ha.held d (List.mem_eraseIdx_iff_getElem?.mpr ⟨j, ?_, hj⟩) hproc hcov
    rintro rfl
    rw [ha.held] at hj
    exact hne (Option.some.inj hj ▸ rfl)
  have hov : d.2.Overlaps e.2 := ⟨access.addr, hcov, ha.covers⟩
  have hmem := h.mem_granted (List.mem_of_getElem? ha.held)
  have hnone : ¬ (d.2.access = .readWrite ∨ e.2.access = .readWrite) := fun hrw =>
    h.exclusion.mutualExclusion d.2 (h.mem_granted hd) e.2 hmem hproc hrw hov
  constructor
  · cases hmode : d.2.access with
    | readOnly => rfl
    | readWrite => exact absurd (.inl hmode) hnone
  · exact Bool.eq_false_iff.mpr fun hw => hnone (.inr (ha.writable hw))

theorem CoherenceOk.touch {bytes : Nat → UInt8} (h : CoherenceOk bytes₀ s)
    (ha : s.Allowed i e access) (hrun : access.run s.bytes = some bytes) :
    CoherenceOk bytes₀ { s with bytes := bytes, log := s.log ++ [⟨e.1, e.2, access⟩] } := by
  have he := List.mem_of_getElem? ha.held
  refine ⟨h.exclusion, h.held, h.newest, h.stamped, ?_, ?_, ?_, ?_, ?_, ?_, ?_⟩
  · exact List.forall_mem_append.mpr ⟨h.logged, List.forall_mem_singleton.mpr (h.stamped e he)⟩
  · refine List.forall_mem_append.mpr ⟨h.named, List.forall_mem_singleton.mpr ?_⟩
    exact fun d hd hde => congrArg Prod.snd (h.stamp_inj hd he hde)
  · intro t ht u hu htu
    rcases List.mem_append.mp ht with ht | ht
    · rcases List.mem_append.mp hu with hu | hu
      · exact h.alike t ht u hu htu
      · obtain rfl := List.mem_singleton.mp hu
        exact (h.named t ht e he htu.symm).symm
    · obtain rfl := List.mem_singleton.mp ht
      rcases List.mem_append.mp hu with hu | hu
      · exact h.named u hu e he htu
      · rw [List.mem_singleton.mp hu]
  · exact List.forall_mem_append.mpr ⟨h.writable, List.forall_mem_singleton.mpr ha.writable⟩
  · refine List.forall_mem_append.mpr ⟨h.unseen, List.forall_mem_singleton.mpr ?_⟩
    exact fun d hd hlt => h.unseen_touch ha hd (Nat.ne_of_lt hlt)
  · refine h.ordered.concat fun t ht hclash => ?_
    by_contra hle
    have hlt : e.1 < t.stamp := Nat.lt_of_not_le hle
    -- an access under a later claim, and one that clashes with it under this one
    obtain ⟨hro, hread⟩ := h.unseen t ht e he hlt (hclash.1 ▸ ha.covers)
    rcases hclash.2 with hw | hw
    · rw [hread] at hw
      cases hw
    · rw [ha.writable hw] at hro
      cases hro
  · exact (replay_concat h.replayed).trans hrun

/-! ## A claim call -/

/-- What a claim call does to the stamped claims. -/
theorem CoherenceOk.restamp_cases (h : CoherenceOk bytes₀ s) {claims : ClaimSys}
    (hs : s.claims.step b a = some claims) :
    (restamp s.clock s.held claims.granted).map Prod.snd = claims.granted ∧
      ((∃ c, restamp s.clock s.held claims.granted = (s.clock, c) :: s.held) ∨
        (restamp s.clock s.held claims.granted).Sublist s.held) := by
  rcases (ClaimSys.granted_cases hs).cons_or_sublist with ⟨c, hc⟩ | hsub
  · rw [hc, ← h.held, restamp_cons]
    exact ⟨rfl, .inl ⟨c, rfl⟩⟩
  · rw [← h.held] at hsub
    have hkept : (restamp s.clock s.held claims.granted).Sublist s.held ∧
        (restamp s.clock s.held claims.granted).map Prod.snd = claims.granted := restamp_sublist hsub
    exact ⟨hkept.2, .inr hkept.1⟩

theorem CoherenceOk.region {claims : ClaimSys} (h : CoherenceOk bytes₀ s)
    (hg : s.claims.Owned a ∧ a.InRange ∧ s.claims.Clean b a)
    (hs : s.claims.step b a = some claims) :
    CoherenceOk bytes₀ { s with claims := claims, clock := s.clock + 1,
                                held := restamp s.clock s.held claims.granted } := by
  obtain ⟨hmap, hheld⟩ := h.restamp_cases hs
  -- a claim that is held now was held before, unless it has just been granted
  have hold : ∀ e ∈ restamp s.clock s.held claims.granted, e ∈ s.held ∨ e.1 = s.clock := by
    rcases hheld with ⟨c, hc⟩ | hsub
    · rw [hc]
      exact List.forall_mem_cons.mpr ⟨.inr rfl, fun e he => .inl he⟩
    · exact fun e he => .inl (hsub.subset he)
  refine ⟨h.exclusion.step hg.1 hg.2.1 hg.2.2 hs, hmap, ?_, ?_, ?_, ?_, h.alike, h.writable, ?_,
    h.ordered, h.replayed⟩
  · rcases hheld with ⟨c, hc⟩ | hsub
    · rw [hc]
      exact List.pairwise_cons.mpr ⟨h.stamped, h.newest⟩
    · exact h.newest.sublist hsub
  · intro e he
    rcases hold e he with hmem | hnew
    · exact Nat.lt_succ_of_lt (h.stamped e hmem)
    · exact hnew ▸ Nat.lt_succ_self s.clock
  · exact fun t ht => Nat.lt_succ_of_lt (h.logged t ht)
  · intro t ht e he hstamp
    rcases hold e he with hmem | hnew
    · exact h.named t ht e hmem hstamp
    · have := h.logged t ht
      omega
  · intro t ht e he hlt
    rcases hold e he with hmem | hnew
    · exact h.unseen t ht e hmem hlt
    · have := h.logged t ht
      omega

/-! ## Runs -/

/-- The access an event makes, if it makes one. -/
theorem allowed_of_disciplined {event : ByteEvent} (hg : s.Disciplined b event)
    (hs : s.step b event = some s') :
    (∃ a claims, event = .region a ∧ s.claims.step b a = some claims ∧
      s' = { s with claims := claims, clock := s.clock + 1,
                    held := restamp s.clock s.held claims.granted }) ∨
    ∃ i e access bytes, s.Allowed i e access ∧ access.run s.bytes = some bytes ∧
      s' = { s with bytes := bytes, log := s.log ++ [⟨e.1, e.2, access⟩] } := by
  cases event with
  | region a =>
    obtain ⟨claims, hclaims, rfl⟩ := Option.map_eq_some_iff.mp hs
    exact .inl ⟨a, claims, rfl, hclaims, rfl⟩
  | read i x =>
    obtain ⟨e, hget, rfl⟩ := Option.map_eq_some_iff.mp hs
    refine .inr ⟨i, e, .read x (s.bytes x), s.bytes, ⟨hget, hg.1, hg.2 e hget, ?_⟩,
      Access.run_read rfl, rfl⟩
    intro hw
    cases hw
  | write i x v =>
    obtain ⟨e, hget, rfl⟩ := Option.map_eq_some_iff.mp hs
    exact .inr ⟨i, e, .write x v, _, ⟨hget, hg.1, (hg.2 e hget).1, fun _ => (hg.2 e hget).2⟩,
      rfl, rfl⟩

theorem CoherenceOk.step {event : ByteEvent} (h : CoherenceOk bytes₀ s)
    (hg : s.Disciplined b event) (hs : s.step b event = some s') : CoherenceOk bytes₀ s' := by
  rcases allowed_of_disciplined hg hs with ⟨a, claims, rfl, hclaims, rfl⟩ |
    ⟨i, e, access, bytes, ha, hrun, rfl⟩
  · exact h.region hg hclaims
  · exact h.touch ha hrun

theorem coherenceOk_init {raw : ClaimList} {capacity : Nat} (hcap : capacity < 2 ^ 31) :
    CoherenceOk bytes₀ (init raw capacity bytes₀) where
  exclusion := ClaimSys.exclusionOk_init hcap
  held := rfl
  newest := List.Pairwise.nil
  stamped := List.forall_mem_nil _
  logged := List.forall_mem_nil _
  named := List.forall_mem_nil _
  alike := List.forall_mem_nil _
  writable := List.forall_mem_nil _
  unseen := List.forall_mem_nil _
  ordered := List.Pairwise.nil
  replayed := rfl

theorem coherenceOk_of_disciplined {raw : ClaimList} {capacity : Nat} (hcap : capacity < 2 ^ 31)
    (hr : Reach (step b) (Disciplined b) (init raw capacity bytes₀) s) : CoherenceOk bytes₀ s :=
  hr.invariant (coherenceOk_init hcap) fun _ _ _ h hg hs => h.step hg hs

/-! ## Claims as sections -/

/-- `serial` is the log taken claim by claim, and leaves the same bytes. A read in it sees the value
it saw in the log. -/
structure SerialOrder (bytes₀ : Nat → UInt8) (s : ByteSys) (serial : List Touch) : Prop where
  perm : serial.Perm s.log
  /-- The claims come in the order in which they were granted ... -/
  granted : serial.Pairwise fun t u => t.stamp ≤ u.stamp
  /-- ... with all that was done under a claim together ... -/
  alike : ∀ t ∈ serial, ∀ u ∈ serial, t.stamp = u.stamp → t.claim = u.claim
  /-- ... and in the order in which it was done. -/
  program : ∀ k, (serial.filter fun t => t.stamp = k) = s.log.filter fun t => t.stamp = k
  replayed : replay Touch.access bytes₀ serial = some s.bytes

theorem CoherenceOk.serialOrder (h : CoherenceOk bytes₀ s) :
    SerialOrder bytes₀ s (serialize Touch.stamp s.log) where
  perm := serialize_perm s.log
  granted := serialize_pairwise s.log
  alike := by
    intro t ht u hu
    have hperm : (serialize Touch.stamp s.log).Perm s.log := serialize_perm s.log
    exact h.alike t (hperm.mem_iff.mp ht) u (hperm.mem_iff.mp hu)
  program := fun k => filter_serialize k s.log
  replayed := (replay_serialize bytes₀ h.ordered).trans h.replayed

/-- **Claims are atomic.** What a disciplined run does to the bytes, and all it sees of them, is what
its claims would have done one after the other. -/
theorem serializable_of_disciplined {raw : ClaimList} {capacity : Nat} (hcap : capacity < 2 ^ 31)
    (hr : Reach (step b) (Disciplined b) (init raw capacity bytes₀) s) :
    ∃ serial, SerialOrder bytes₀ s serial :=
  ⟨_, (coherenceOk_of_disciplined hcap hr).serialOrder⟩

/-- Two readers, the later one first: the serial order is not the log's. -/
theorem serializable_two_readers :
    ∃ s, Reach (step ⟨false⟩) (Disciplined ⟨false⟩) (init zeroList pageCapacity fun _ => 0) s ∧
      (s.log.map Touch.stamp = [1, 0]) ∧ ∃ serial, SerialOrder (fun _ => 0) s serial := by
  have h1 : Reach (step ⟨false⟩) (Disciplined ⟨false⟩) (init zeroList pageCapacity fun _ => 0) _ :=
    .next (a := .region (.claim ⟨1, 4096, .readWrite⟩ .success .readOnly 0 32)) .init
      ⟨trivial, by decide, fun _ _ _ => by decide⟩ rfl
  have h2 : Reach (step ⟨false⟩) (Disciplined ⟨false⟩) (init zeroList pageCapacity fun _ => 0) _ :=
    .next (a := .region (.claim ⟨2, 4096, .readWrite⟩ .success .readOnly 16 32)) h1
      ⟨trivial, by decide, fun _ _ _ => by decide⟩ rfl
  have h3 : Reach (step ⟨false⟩) (Disciplined ⟨false⟩) (init zeroList pageCapacity fun _ => 0) _ :=
    .next (a := .read 0 20) h2 ⟨by decide, by decide⟩ rfl
  have h4 : Reach (step ⟨false⟩) (Disciplined ⟨false⟩) (init zeroList pageCapacity fun _ => 0) _ :=
    .next (a := .read 1 20) h3 ⟨by decide, by decide⟩ rfl
  exact ⟨_, h4, by decide, serializable_of_disciplined (by decide) h4⟩

/-! ## What a holder sees -/

/-- From `s` on, nobody else has had anything to do with the bytes of the held claim `e`. -/
structure Undisturbed (e : Nat × MemoryClaim) (s s' : ByteSys) (new : List Touch) : Prop where
  log : s'.log = s.log ++ new
  unseen : ∀ t ∈ new, t.stamp ≠ e.1 → Unseen e.2 t

theorem Undisturbed.step {new : List Touch} {u : ByteSys} {event : ByteEvent}
    (h : CoherenceOk bytes₀ s') (hold : e ∈ s'.held) (hu : Undisturbed e s s' new)
    (hg : s'.Disciplined b event) (hs : s'.step b event = some u) :
    ∃ new', Undisturbed e s u new' := by
  rcases allowed_of_disciplined hg hs with ⟨a, claims, rfl, hclaims, rfl⟩ |
    ⟨i, d, access, bytes, ha, hrun, rfl⟩
  · exact ⟨new, hu.log, hu.unseen⟩
  · refine ⟨new ++ [⟨d.1, d.2, access⟩], ?_, ?_⟩
    · show s'.log ++ [_] = _
      rw [hu.log, List.append_assoc]
    · exact List.forall_mem_append.mpr ⟨hu.unseen, List.forall_mem_singleton.mpr fun hne =>
        h.unseen_touch ha hold (Ne.symm hne)⟩

/-- A claim that is there after a step and is older than the step was there before it. -/
theorem held_before {event : ByteEvent} (h : CoherenceOk bytes₀ s) (hg : s.Disciplined b event)
    (hs : s.step b event = some s') (he : e ∈ s'.held) (hold : e.1 < s.clock) : e ∈ s.held := by
  rcases allowed_of_disciplined hg hs with ⟨a, claims, rfl, hclaims, rfl⟩ |
    ⟨i, d, access, bytes, ha, hrun, rfl⟩
  · rcases (h.restamp_cases hclaims).2 with ⟨c, hc⟩ | hsub
    · have he' : e ∈ (s.clock, c) :: s.held := hc ▸ he
      rcases List.mem_cons.mp he' with rfl | hmem
      · exact absurd hold (Nat.lt_irrefl _)
      · exact hmem
    · exact hsub.subset he
  · exact he

theorem clock_le {event : ByteEvent} (hs : s.step b event = some s') : s.clock ≤ s'.clock := by
  cases event with
  | region a =>
    obtain ⟨claims, -, rfl⟩ := Option.map_eq_some_iff.mp hs
    exact Nat.le_succ _
  | read i x =>
    obtain ⟨e, -, rfl⟩ := Option.map_eq_some_iff.mp hs
    exact Nat.le_refl _
  | write i x v =>
    obtain ⟨e, -, rfl⟩ := Option.map_eq_some_iff.mp hs
    exact Nat.le_refl _

/-- While a claim is held, all the others leave its bytes alone. -/
theorem CoherenceOk.undisturbed (h : CoherenceOk bytes₀ s) (he : e ∈ s.held)
    (hr : Reach (ByteSys.step b) (Disciplined b) s s') :
    CoherenceOk bytes₀ s' ∧ e.1 < s'.clock ∧ (e ∈ s'.held → ∃ new, Undisturbed e s s' new) := by
  refine hr.invariant (I := fun u => CoherenceOk bytes₀ u ∧ e.1 < u.clock ∧
    (e ∈ u.held → ∃ new, Undisturbed e s u new)) ⟨h, h.stamped e he, fun _ => ⟨[], ?_, ?_⟩⟩ ?_
  · exact (List.append_nil _).symm
  · exact List.forall_mem_nil _
  · rintro u event u' ⟨hu, hlt, hnew⟩ hg hs
    refine ⟨hu.step hg hs, Nat.lt_of_lt_of_le hlt (clock_le hs), fun hheld => ?_⟩
    have hbefore := held_before hu hg hs hheld hlt
    obtain ⟨new, hund⟩ := hnew hbefore
    exact hund.step hu hbefore hg hs

/-- Nothing is written under a read-only claim. -/
theorem CoherenceOk.reads (h : CoherenceOk bytes₀ s) (he : e ∈ s.held) (hro : e.2.access = .readOnly)
    (ht : t ∈ s.log) (hstamp : t.stamp = e.1) : t.access.writes = false := by
  rw [← Bool.not_eq_true]
  intro hw
  have hrw := h.writable t ht hw
  rw [← h.named t ht e he hstamp.symm, hro] at hrw
  cases hrw

/-- **A held region is its holder's.** Between two states of a disciplined run in which a claim is
held, every access to its bytes that matters was made under it: a byte of it that was not written
under it is as it was. Under a read-only claim that is every byte. -/
theorem unchanged_of_held {raw : ClaimList} {capacity : Nat} (hcap : capacity < 2 ^ 31)
    (hr : Reach (step b) (Disciplined b) (init raw capacity bytes₀) s)
    (hr' : Reach (step b) (Disciplined b) s s') (he : e ∈ s.held) (he' : e ∈ s'.held) :
    ∃ new, Undisturbed e s s' new ∧ ∀ x, e.2.Covers x →
      ((∀ t ∈ new, t.stamp = e.1 → t.access.addr = x → t.access.writes = false) ∨
        e.2.access = .readOnly) → s'.bytes x = s.bytes x := by
  have h := coherenceOk_of_disciplined hcap hr
  obtain ⟨h', -, hnew⟩ := h.undisturbed he hr'
  obtain ⟨new, hund⟩ := hnew he'
  refine ⟨new, hund, fun x hx hown => ?_⟩
  -- the log since then leads from the bytes then to the bytes now
  have hrun : replay Touch.access s.bytes new = some s'.bytes := by
    have hall := h'.replayed
    rw [hund.log, replay_append, h.replayed] at hall
    exact hall
  refine replay_of_forall_not_writes (fun t ht hxt => ?_) hrun
  by_cases hstamp : t.stamp = e.1
  · rcases hown with hquiet | hro
    · exact hquiet t ht hstamp hxt
    · refine h'.reads he' hro ?_ hstamp
      rw [hund.log]
      exact List.mem_append_right _ ht
  · exact (hund.unseen t ht hstamp (hxt ▸ hx)).2

/-- A reader that reads twice, with another reader in between. -/
theorem unchanged_two_readers :
    ∃ s s' e, Reach (step ⟨false⟩) (Disciplined ⟨false⟩) s s' ∧ e ∈ s.held ∧ e ∈ s'.held ∧
      s.log.length + 2 = s'.log.length ∧ e.2.access = .readOnly ∧ ∃ new, Undisturbed e s s' new ∧
        ∀ x, e.2.Covers x → s'.bytes x = s.bytes x := by
  have h1 : Reach (step ⟨false⟩) (Disciplined ⟨false⟩) (init zeroList pageCapacity fun _ => 0) _ :=
    .next (a := .region (.claim ⟨1, 4096, .readWrite⟩ .success .readOnly 0 32)) .init
      ⟨trivial, by decide, fun _ _ _ => by decide⟩ rfl
  -- from there on
  have hfrom : ∀ {s₁}, Reach (step ⟨false⟩) (Disciplined ⟨false⟩)
      (init zeroList pageCapacity fun _ => 0) s₁ →
        Reach (step ⟨false⟩) (Disciplined ⟨false⟩) s₁ s₁ := fun _ => .init
  have h2 : Reach (step ⟨false⟩) (Disciplined ⟨false⟩) _ _ :=
    .next (a := .region (.claim ⟨2, 4096, .readWrite⟩ .success .readOnly 16 32)) (hfrom h1)
      ⟨trivial, by decide, fun _ _ _ => by decide⟩ rfl
  have h3 : Reach (step ⟨false⟩) (Disciplined ⟨false⟩) _ _ :=
    .next (a := .read 0 20) h2 ⟨by decide, by decide⟩ rfl
  have h4 : Reach (step ⟨false⟩) (Disciplined ⟨false⟩) _ _ :=
    .next (a := .read 1 20) h3 ⟨by decide, by decide⟩ rfl
  refine ⟨_, _, (0, ⟨0, 1, .readOnly, 0, 32⟩), h4, by decide, by decide, rfl, rfl, ?_⟩
  obtain ⟨new, hund, hbytes⟩ := unchanged_of_held (by decide) h1 h4
    (e := (0, ⟨0, 1, .readOnly, 0, 32⟩)) (by decide) (by decide)
  exact ⟨new, hund, fun x hx => hbytes x hx (.inr rfl)⟩

end ByteSys

end Ipm
