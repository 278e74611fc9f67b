import Mathlib.Data.List.Basic
import Mathlib.Data.List.Range
import Mathlib.Logic.Function.Basic

/-!
# Arrays in place

A C array whose first `n` slots are in use, as a slot function `f : Nat → α` and a length. The
*window* `window f n` is the sequence in use; everything past it is whatever earlier operations
left there, and an operation that shifts too few slots makes a leftover visible again. That is
why the slots are a total function here and not a list: the leftovers are part of the state.

`memmove` is the C function at element granularity, `scan` the search loop with a `break`.
-/

set_option autoImplicit false

namespace Lib

variable {α : Type*}

/-- The first `n` slots, in order. -/
def window (f : Nat → α) (n : Nat) : List α := (List.range n).map f

/-- `memmove(f + dst, f + src, n * sizeof(*f))`: overlapping ranges are read before written. -/
def memmove (f : Nat → α) (dst src n : Nat) : Nat → α :=
  fun i => if dst ≤ i ∧ i < dst + n then f (i - dst + src) else f i

/-- `for (pos = from; left > 0; ++pos, --left) if (p(f[pos])) break;`, answering `pos`. -/
def scan (p : α → Bool) (f : Nat → α) : (pos left : Nat) → Nat
  | pos, 0 => pos
  | pos, left + 1 => if p (f pos) then pos else scan p f (pos + 1) left

/-! ## The window -/

@[simp] theorem length_window (f : Nat → α) (n : Nat) : (window f n).length = n := by
  simp [window]

@[simp] theorem window_zero (f : Nat → α) : window f 0 = [] := rfl

theorem window_succ (f : Nat → α) (n : Nat) : window f (n + 1) = window f n ++ [f n] := by
  simp [window, List.range_succ]

theorem mem_window {f : Nat → α} {n : Nat} {a : α} : a ∈ window f n ↔ ∃ i < n, f i = a := by
  simp [window]

theorem getElem_window (f : Nat → α) {n i : Nat} (h : i < (window f n).length) :
    (window f n)[i] = f i := by
  simp [window]

/-- Two slot functions that agree below `n` have the same window. -/
theorem window_congr {f g : Nat → α} {n : Nat} (h : ∀ i < n, f i = g i) : window f n = window g n := by
  simp only [window, List.map_inj_left, List.mem_range]
  exact h

/-- A window is determined by its slots. -/
theorem window_eq_iff {f : Nat → α} {n : Nat} {l : List α} :
    window f n = l ↔ l.length = n ∧ ∀ (i : Nat) (h : i < l.length), f i = l[i] := by
  constructor
  · rintro rfl
    exact ⟨length_window f n, fun i h => (getElem_window f h).symm⟩
  · rintro ⟨rfl, h⟩
    refine List.ext_getElem (length_window f _) fun i h₁ h₂ => ?_
    rw [getElem_window]
    exact h i h₂

theorem window_add (f : Nat → α) (m n : Nat) :
    window f (m + n) = window f m ++ window (fun i => f (m + i)) n := by
  induction n with
  | zero => simp
  | succ n ih => rw [← Nat.add_assoc, window_succ, ih, window_succ, List.append_assoc]

theorem window_succ' (f : Nat → α) (n : Nat) :
    window f (n + 1) = f 0 :: window (fun i => f (i + 1)) n := by
  rw [Nat.add_comm, window_add]
  simp [window, Nat.add_comm]

/-- Cutting a window in two: each part is a window of its own. -/
theorem window_eq_append {f : Nat → α} {n : Nat} {l₁ l₂ : List α} (h : window f n = l₁ ++ l₂) :
    n = l₁.length + l₂.length ∧ window f l₁.length = l₁ ∧
      window (fun i => f (l₁.length + i)) l₂.length = l₂ := by
  have hn : n = l₁.length + l₂.length := by
    rw [← length_window f n, h, List.length_append]
  rw [hn, window_add] at h
  obtain ⟨h₁, h₂⟩ := List.append_inj h (length_window _ _)
  exact ⟨hn, h₁, h₂⟩

/-! ## Shifting -/

theorem memmove_none (f : Nat → α) (dst src : Nat) : memmove f dst src 0 = f := by
  funext i
  simp only [memmove, Nat.add_zero]
  exact if_neg (by omega)

/-- Shifting `k` slots down by one onto slot `p`: slot `p` is overwritten, and slot `p + k` is
left as it was, a second copy of what now stands before it. -/
theorem window_memmove_down (f : Nat → α) (p k : Nat) :
    window (memmove f p (p + 1) k) (p + k) = window f p ++ window (fun i => f (p + 1 + i)) k := by
  rw [window_add]
  congr 1
  · exact window_congr fun i hi => if_neg (by omega)
  · refine window_congr fun i hi => ?_
    rw [memmove, if_pos (by omega)]
    congr 1
    omega

/-- Shifting `k` slots up by one from slot `p`, and writing slot `p`: slot `p + k + 1`, where the
next element of the array would have to go, keeps what was there. -/
theorem window_memmove_up (f : Nat → α) (p k : Nat) (a : α) :
    window (Function.update (memmove f (p + 1) p k) p a) (p + (k + 1 + 1)) =
      window f p ++ a :: (window (fun i => f (p + i)) k ++ [f (p + (k + 1))]) := by
  have hbelow : ∀ i < p, Function.update (memmove f (p + 1) p k) p a i = f i := by
    intro i hi
    rw [Function.update_of_ne (by omega), memmove, if_neg (by omega)]
  have habove : ∀ i < k, Function.update (memmove f (p + 1) p k) p a (p + (i + 1)) = f (p + i) := by
    intro i hi
    rw [Function.update_of_ne (by omega), memmove, if_pos (by omega)]
    congr 1
    omega
  have hlast : Function.update (memmove f (p + 1) p k) p a (p + (k + 1)) = f (p + (k + 1)) := by
    rw [Function.update_of_ne (by omega), memmove, if_neg (by omega)]
  rw [window_add, window_congr hbelow, window_succ', window_succ, window_congr habove, hlast]
  simp

/-! ## The search loop -/

theorem scan_le (p : α → Bool) (f : Nat → α) (pos left : Nat) : scan p f pos left ≤ pos + left := by
  induction left generalizing pos with
  | zero => simp [scan]
  | succ left ih =>
    simp only [scan]
    split
    · omega
    · have := ih (pos + 1)
      omega

theorem le_scan (p : α → Bool) (f : Nat → α) (pos left : Nat) : pos ≤ scan p f pos left := by
  induction left generalizing pos with
  | zero => exact le_rfl
  | succ left ih =>
    rw [scan]
    split
    · exact le_rfl
    · have := ih (pos + 1)
      omega

/-- No slot before the answer passes the test. -/
theorem scan_before {p : α → Bool} {f : Nat → α} {pos left i : Nat} (h₀ : pos ≤ i)
    (h₁ : i < scan p f pos left) : p (f i) = false := by
  induction left generalizing pos with
  | zero => simp only [scan] at h₁; omega
  | succ left ih =>
    simp only [scan] at h₁
    split at h₁
    · omega
    · rename_i hp
      by_cases hi : i = pos
      · subst hi; simpa using hp
      · exact ih (by omega) h₁

/-- An answer inside the range passes the test. -/
theorem scan_hit {p : α → Bool} {f : Nat → α} {pos left : Nat} (h : scan p f pos left < pos + left) :
    p (f (scan p f pos left)) = true := by
  induction left generalizing pos with
  | zero => simp [scan] at h
  | succ left ih =>
    simp only [scan] at h ⊢
    split
    · assumption
    · rename_i hp
      rw [if_neg hp] at h
      exact ih (by omega)

/-- The loop looks at the slots up to its answer, and at no others. -/
theorem scan_congr {p : α → Bool} {f g : Nat → α} {pos left : Nat}
    (h : ∀ i, pos ≤ i → i < pos + left → i ≤ scan p f pos left → g i = f i) :
    scan p g pos left = scan p f pos left := by
  induction left generalizing pos with
  | zero => rfl
  | succ left ih =>
    have hle : pos ≤ scan p f pos (left + 1) := by
      rw [scan]
      split
      · exact le_rfl
      · exact Nat.le_of_succ_le (le_scan p f (pos + 1) left)
    have hpos : g pos = f pos := h pos le_rfl (by omega) hle
    rw [scan, scan, hpos]
    split
    · rfl
    · rename_i hp
      apply ih
      intro i hi hlt hle'
      apply h i (by omega) (by omega)
      rw [scan, if_neg hp]
      exact hle'

/-- The loop ends at slot `k` when `k` is the first that passes the test. -/
theorem scan_eq {p : α → Bool} {f : Nat → α} {n k : Nat} (hk : k < n) (hp : p (f k) = true)
    (hbefore : ∀ i < k, p (f i) = false) : scan p f 0 n = k := by
  have hle : scan p f 0 n ≤ k := by
    by_contra hlt
    have hfalse : p (f k) = false := scan_before (Nat.zero_le k) (Nat.lt_of_not_le hlt)
    rw [hp] at hfalse
    cases hfalse
  rcases Nat.lt_or_eq_of_le hle with hlt | heq
  · have hhit : p (f (scan p f 0 n)) = true := scan_hit (by omega)
    rw [hbefore _ hlt] at hhit
    cases hhit
  · exact heq

/-- The loop runs through when nothing passes the test. -/
theorem scan_eq_end {p : α → Bool} {f : Nat → α} {n : Nat} (h : ∀ i < n, p (f i) = false) :
    scan p f 0 n = n := by
  rcases Nat.lt_or_eq_of_le (scan_le p f 0 n) with hlt | heq
  · have hhit : p (f (scan p f 0 n)) = true := scan_hit hlt
    rw [h _ (by omega)] at hhit
    cases hhit
  · omega

/-- The loop runs through exactly when no element of the window passes the test. -/
theorem scan_eq_end_iff {p : α → Bool} {f : Nat → α} {n : Nat} :
    scan p f 0 n = n ↔ ∀ a ∈ window f n, p a = false := by
  constructor
  · intro h a ha
    obtain ⟨i, hi, rfl⟩ := mem_window.mp ha
    exact scan_before (Nat.zero_le i) (by rw [h]; exact hi)
  · intro h
    exact scan_eq_end fun i hi => h _ (mem_window.mpr ⟨i, hi, rfl⟩)

end Lib
