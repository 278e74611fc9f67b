import Mathlib.Data.Nat.Digits.Defs
import Mathlib.Data.Nat.Digits.Lemmas
import Ipm.Core.Common

/-!
# `make_block_name_based_on_id`

A block is two shared objects, told apart by an id that is printed into their names with
`snprintf(buffer, IPM_MAX_NAME_LEN + 32, "/%.*s-%#016lX", IPM_MAX_NAME_LEN, block_name, id)`.
Everything that shares the namespace rests on different `(name, id)` pairs getting different
strings. The id is printed without a `-`, so the last `-` of the string is the separator whatever
the name contains, and the digits can be read back.
-/

set_option autoImplicit false

namespace Ipm

/-- A block name the assertions of the library let through. -/
@[ext]
structure BlockName where
  chars : CString
  length_le : chars.length ≤ maxNameLen
  noSlash : '/' ∉ chars
  deriving DecidableEq

/-- The name `"a"`. -/
def BlockName.a : BlockName := ⟨['a'], by decide, by decide⟩

/-- The name `"b"`. -/
def BlockName.b : BlockName := ⟨['b'], by decide, by decide⟩

def hexChar (d : Nat) : Char := "0123456789ABCDEF".toList.getD d '0'

def hexVal (c : Char) : Nat := "0123456789ABCDEF".toList.idxOf c

/-- `%#016lX`: the prefix counts towards the width, and zero has none. -/
def formatId (id : UInt64) : CString :=
  if id = 0 then List.replicate 16 '0'
  else
    let digits := Nat.digits 16 id.toNat
    '0' :: 'X' :: (List.replicate (14 - digits.length) '0' ++ digits.reverse.map hexChar)

/-- `make_block_name_based_on_id`, into a buffer of `IPM_MAX_NAME_LEN + 32` bytes. -/
def makeBlockNameBasedOnId (blockName : CString) (id : UInt64) : CString :=
  ('/' :: (blockName.take maxNameLen ++ '-' :: formatId id)).take (maxNameLen + 32 - 1)

/-- `enum ipm_memory_block_T`: which of a block's two objects an id means. -/
inductive MemoryBlock where
  | realMemory
  | activeClaims
  deriving DecidableEq, Repr

instance {P : MemoryBlock → Prop} [DecidablePred P] : Decidable (∀ kind, P kind) :=
  decidable_of_iff (P .realMemory ∧ P .activeClaims)
    ⟨fun h kind => match kind with | .realMemory => h.1 | .activeClaims => h.2,
      fun h => ⟨h .realMemory, h .activeClaims⟩⟩

def MemoryBlock.id : MemoryBlock → UInt64
  | realMemory => 1
  | activeClaims => 2

theorem MemoryBlock.id_injective : Function.Injective MemoryBlock.id := by
  intro a c h
  cases a <;> cases c <;> first | rfl | exact absurd h (by decide)

/-! ## Reading the id back -/

theorem hexVal_hexChar : ∀ d < 16, hexVal (hexChar d) = d := by decide

def readHex (l : CString) : Nat := Nat.ofDigits 16 (l.map hexVal).reverse

theorem readHex_digits (k n : Nat) :
    readHex (List.replicate k '0' ++ (Nat.digits 16 n).reverse.map hexChar) = n := by
  have hval : ((Nat.digits 16 n).reverse.map hexChar).map hexVal = (Nat.digits 16 n).reverse := by
    rw [List.map_map]
    refine (List.map_congr_left fun d hd => ?_).trans (List.map_id _)
    exact hexVal_hexChar d (Nat.digits_lt_base (by decide) (List.mem_reverse.mp hd))
  have hzero : hexVal '0' = 0 := by decide
  rw [readHex, List.map_append, hval, List.map_replicate, hzero, List.reverse_append,
    List.reverse_reverse, List.reverse_replicate, Nat.ofDigits_append_replicate_zero,
    Nat.ofDigits_digits]

theorem formatId_injective : Function.Injective formatId := by
  intro a c h
  simp only [formatId] at h
  by_cases ha : a = 0
  · by_cases hc : c = 0
    · rw [ha, hc]
    · -- the second character is the prefix or a zero
      rw [if_pos ha, if_neg hc] at h
      exact absurd (congrArg (·[1]?) h) (by simp)
  · by_cases hc : c = 0
    · rw [if_neg ha, if_pos hc] at h
      exact absurd (congrArg (·[1]?) h) (by simp)
    · rw [if_neg ha, if_neg hc] at h
      have htail := congrArg (fun l => readHex (l.drop 2)) h
      simp only [List.drop_succ_cons, List.drop_zero, readHex_digits] at htail
      exact UInt64.toNat_inj.mp htail

/-- The id is printed with hexadecimal digits and an `X`. -/
theorem not_mem_formatId {c : Char} (hX : c ≠ 'X') (hdigit : ∀ d < 16, hexChar d ≠ c) (id : UInt64) :
    c ∉ formatId id := by
  intro h
  have hzero : '0' ≠ c := hdigit 0 (by decide)
  unfold formatId at h
  split at h
  · exact hzero (List.eq_of_mem_replicate h).symm
  · simp only [List.mem_cons, List.mem_append, List.mem_map, List.mem_reverse] at h
    rcases h with h | h | h | ⟨d, hd, h⟩
    · exact hzero h.symm
    · exact hX h
    · exact hzero (List.eq_of_mem_replicate h).symm
    · exact hdigit d (Nat.digits_lt_base (by decide) hd) h

theorem dash_not_mem_formatId (id : UInt64) : '-' ∉ formatId id :=
  not_mem_formatId (by decide) (by decide) id

theorem slash_not_mem_formatId (id : UInt64) : '/' ∉ formatId id :=
  not_mem_formatId (by decide) (by decide) id

/-! ## The whole string -/

/-- What follows the last separator, and what precedes it, are determined by the string. -/
theorem append_dash_inj {a c x y : CString} (hx : '-' ∉ x) (hy : '-' ∉ y)
    (h : a ++ '-' :: x = c ++ '-' :: y) : a = c ∧ x = y := by
  rcases List.append_eq_append_iff.mp h with ⟨t, hc, ht⟩ | ⟨t, ha, ht⟩
  · cases t with
    | nil => simp_all
    | cons d t =>
      rw [List.cons_append, List.cons.injEq] at ht
      exact absurd (ht.2 ▸ List.mem_append_right t List.mem_cons_self) hx
  · cases t with
    | nil => simp_all
    | cons d t =>
      rw [List.cons_append, List.cons.injEq] at ht
      exact absurd (ht.2 ▸ List.mem_append_right t List.mem_cons_self) hy

theorem length_formatId (id : UInt64) : (formatId id).length ≤ 18 := by
  unfold formatId
  split
  · simp
  · have hlen : (Nat.digits 16 id.toNat).length ≤ 16 := by
      rw [Nat.digits_length_le_iff (by decide)]
      exact id.toNat_lt
    simp only [List.length_cons, List.length_append, List.length_replicate, List.length_map,
      List.length_reverse]
    omega

/-- The buffer is long enough: nothing of a name within the limit is cut off. -/
theorem makeBlockNameBasedOnId_eq {name : CString} (h : name.length ≤ maxNameLen) (id : UInt64) :
    makeBlockNameBasedOnId name id = '/' :: (name ++ '-' :: formatId id) := by
  have hlen := length_formatId id
  have hmax : maxNameLen = 256 := rfl
  rw [makeBlockNameBasedOnId, List.take_of_length_le h]
  refine List.take_of_length_le ?_
  simp only [List.length_cons, List.length_append]
  omega

/-- **Names do not collide**, whatever characters they contain. -/
theorem makeBlockNameBasedOnId_injective {m n : CString} {i j : UInt64}
    (hm : m.length ≤ maxNameLen) (hn : n.length ≤ maxNameLen)
    (h : makeBlockNameBasedOnId m i = makeBlockNameBasedOnId n j) : m = n ∧ i = j := by
  rw [makeBlockNameBasedOnId_eq hm, makeBlockNameBasedOnId_eq hn, List.cons.injEq] at h
  obtain ⟨hname, hid⟩ :=
    append_dash_inj (dash_not_mem_formatId i) (dash_not_mem_formatId j) h.2
  exact ⟨hname, formatId_injective hid⟩

/-- A string the namespace takes: one `/`, in front, and short enough for the buffer with its
terminator. -/
structure ObjectName (path : CString) : Prop where
  slash : ∃ rest, path = '/' :: rest ∧ '/' ∉ rest
  fits : path.length + 1 ≤ maxNameLen + 32

theorem objectName_make (name : BlockName) (id : UInt64) :
    ObjectName (makeBlockNameBasedOnId name.chars id) := by
  have hlen := length_formatId id
  have hname := name.length_le
  rw [makeBlockNameBasedOnId_eq hname]
  refine ⟨⟨_, rfl, ?_⟩, ?_⟩
  · intro h
    simp only [List.mem_append, List.mem_cons] at h
    rcases h with h | h | h
    · exact name.noSlash h
    · exact absurd h (by decide)
    · exact slash_not_mem_formatId id h
  · simp only [List.length_cons, List.length_append]
    omega

/-! ## Through the header

`block_name` is a field of `IPM_MAX_NAME_LEN + 1` bytes. The name is copied in with its terminator,
and printed from there when the block is closed. -/

/-- `memcpy(header->block_name, block_name, name_len); header->block_name[name_len] = 0;` -/
def storeBlockName (field blockName : CString) : CString :=
  blockName ++ '\x00' :: field.drop (blockName.length + 1)

/-- The string in the field, as `%.*s` reads it. -/
def loadBlockName (field : CString) : CString :=
  (field.takeWhile (· ≠ '\x00')).take maxNameLen

theorem length_storeBlockName {field name : CString} (hfield : field.length = maxNameLen + 1)
    (h : name.length ≤ maxNameLen) : (storeBlockName field name).length = maxNameLen + 1 := by
  simp only [storeBlockName, List.length_append, List.length_cons, List.length_drop]
  omega

theorem loadBlockName_store {field name : CString} (h : name.length ≤ maxNameLen)
    (hnul : '\x00' ∉ name) : loadBlockName (storeBlockName field name) = name := by
  have htake : (storeBlockName field name).takeWhile (· ≠ '\x00') = name := by
    rw [storeBlockName, List.takeWhile_append_of_pos]
    · simp
    · intro c hc
      simp only [ne_eq, decide_not, Bool.not_eq_true', decide_eq_false_iff_not]
      rintro rfl
      exact hnul hc
  rw [loadBlockName, htake, List.take_of_length_le h]

end Ipm
