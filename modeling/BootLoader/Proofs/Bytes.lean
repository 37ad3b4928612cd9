import BootLoader.Bytes
import Mathlib.Algebra.Group.Nat.Defs

/-! Reading from a byte string. A number can be read where all its bytes are, and it is the one that
these bytes spell; a part of a byte string reads like the whole. -/

namespace BootLoader.Bytes

def part (bs : Bytes) (off n : Nat) : List UInt8 := (bs.slice off n).toList

/-- The number that the `n` bytes at `off` spell, the lowest byte first. -/
def field (bs : Bytes) (off n : Nat) : Nat := leNat (bs.part off n)

variable {bs : Bytes} {off len i n : Nat}

theorem slice_slice (h : i + n ≤ len) : (bs.slice off len).slice i n = bs.slice (off + i) n := by
  apply ext_toList
  simp only [toList_slice, List.drop_take, List.take_take, List.drop_drop]
  rw [Nat.min_eq_left (by omega)]

theorem ext_get? {a : Bytes} (hsize : a.size = bs.size) (h : ∀ j < a.size, a.get? j = bs.get? j) :
    a = bs := by
  refine ext_toList (List.ext_getElem hsize fun j hj hj' => ?_)
  have hbyte := h j hj
  rw [get?_eq, get?_eq, List.getElem?_eq_getElem hj, List.getElem?_eq_getElem hj'] at hbyte
  exact Option.some.inj hbyte

theorem get?_slice (h : i < len) : (bs.slice off len).get? i = bs.get? (off + i) := by
  rw [get?_eq, toList_slice, List.getElem?_take_of_lt h, List.getElem?_drop, get?_eq]

theorem slice_size (bs : Bytes) : bs.slice 0 bs.size = bs := by
  apply ext_toList
  rw [toList_slice, List.drop_zero, ← length_toList, List.take_length]

theorem length_part (h : off + n ≤ bs.size) : (bs.part off n).length = n := by
  rw [part, length_toList, size_slice h]

theorem part_slice (h : i + n ≤ len) : (bs.slice off len).part i n = bs.part (off + i) n :=
  congrArg toList (slice_slice h)

/-- The same bytes spell the same number. -/
theorem field_congr {a : Bytes} {j : Nat} (h : a.part i n = bs.part j n) : a.field i n = bs.field j n :=
  congrArg leNat h

theorem field_slice (h : i + n ≤ len) : (bs.slice off len).field i n = bs.field (off + i) n :=
  field_congr (part_slice h)

section Alike

variable {a : Bytes} {k : Nat} (hsame : a.slice 0 k = bs.slice 0 k) (h : off + n ≤ k)
include hsame h

/-- What starts alike has the same bytes wherever that is. -/
theorem slice_alike : a.slice off n = bs.slice off n := by
  have hslice : ∀ c : Bytes, (c.slice 0 k).slice off n = c.slice off n := fun c => by
    rw [slice_slice h, Nat.zero_add]
  rw [← hslice a, hsame, hslice bs]

theorem part_alike : a.part off n = bs.part off n := congrArg toList (slice_alike hsame h)

theorem field_alike : a.field off n = bs.field off n := field_congr (part_alike hsame h)

end Alike

theorem part_drop (h : i + off + n ≤ bs.size) : (bs.drop i).part off n = bs.part (i + off) n :=
  part_slice (by omega)

theorem field_drop (h : i + off + n ≤ bs.size) : (bs.drop i).field off n = bs.field (i + off) n :=
  field_congr (part_drop h)

theorem size_drop (bs : Bytes) (i : Nat) : (bs.drop i).size = bs.size - i := by
  rw [← length_toList, toList_drop, List.length_drop, length_toList]

theorem field_lt (bs : Bytes) (off n : Nat) : bs.field off n < 2 ^ (8 * n) := by
  have hlt := leNat_lt (bs.part off n)
  rw [Nat.one_shiftLeft] at hlt
  refine Nat.lt_of_lt_of_le hlt (Nat.pow_le_pow_right (by decide) (Nat.mul_le_mul_left 8 ?_))
  rw [part, toList_slice, List.length_take]
  exact Nat.min_le_left ..

theorem toNat_field8 (bs : Bytes) (off : Nat) :
    (UInt8.ofNat (bs.field off 1)).toNat = bs.field off 1 :=
  UInt8.toNat_ofNat_of_lt' (bs.field_lt off 1)

theorem toNat_field16 (bs : Bytes) (off : Nat) :
    (UInt16.ofNat (bs.field off 2)).toNat = bs.field off 2 :=
  UInt16.toNat_ofNat_of_lt' (bs.field_lt off 2)

theorem toNat_field32 (bs : Bytes) (off : Nat) :
    (UInt32.ofNat (bs.field off 4)).toNat = bs.field off 4 :=
  UInt32.toNat_ofNat_of_lt' (bs.field_lt off 4)

theorem toNat_field64 (bs : Bytes) (off : Nat) :
    (UInt64.ofNat (bs.field off 8)).toNat = bs.field off 8 :=
  UInt64.toNat_ofNat_of_lt' (bs.field_lt off 8)

/-- The number at a place, written down, gives the bytes there. -/
theorem ofNatLE_field (h : off + n ≤ bs.size) : ofNatLE n (bs.field off n) = bs.part off n := by
  have hback := ofNatLE_leNat (bs.part off n)
  rwa [length_part h] at hback

/-- The bytes at a place are the given ones where there is room for them and they spell the same
number. -/
theorem part_eq_iff {l : List UInt8} (hl : l.length = n) (hn : 0 < n) :
    bs.part off n = l ↔ off + n ≤ bs.size ∧ bs.field off n = leNat l := by
  constructor
  · rintro rfl
    rw [part, toList_slice, List.length_take, List.length_drop, length_toList] at hl
    exact ⟨by omega, rfl⟩
  · rintro ⟨hle, hfield⟩
    calc
      bs.part off n = ofNatLE n (bs.field off n) := (ofNatLE_field hle).symm
      _ = ofNatLE l.length (leNat l) := by rw [hfield, hl]
      _ = l := ofNatLE_leNat l

theorem get?_eq_some {b : UInt8} : bs.get? i = some b ↔ i + 1 ≤ bs.size ∧ bs.field i 1 = b.toNat := by
  have hpart : ∀ h : i < bs.toList.length, bs.part i 1 = [bs.toList[i]] := fun h => by
    rw [part, toList_slice, List.drop_eq_getElem_cons h]
    rfl
  rw [get?_eq, List.getElem?_eq_some_iff]
  constructor
  · rintro ⟨h, rfl⟩
    exact ⟨h, by simp [field, hpart h, leNat]⟩
  · rintro ⟨h, hb⟩
    exact ⟨h, UInt8.toNat_inj.mp (by simpa [field, hpart h, leNat] using hb)⟩

theorem leAt?_eq_some {v : Nat} :
    bs.leAt? off n = some v ↔ off + n ≤ bs.size ∧ bs.field off n = v := by
  rw [leAt?_eq, Option.map_eq_some_iff]
  constructor
  · rintro ⟨s, hs, rfl⟩
    obtain ⟨hle, rfl⟩ := slice?_eq_some.mp hs
    exact ⟨hle, rfl⟩
  · rintro ⟨hle, rfl⟩
    exact ⟨_, slice?_eq_some.mpr ⟨hle, rfl⟩, rfl⟩

theorem leAt?_isSome : (bs.leAt? off n).isSome ↔ off + n ≤ bs.size := by
  rw [leAt?_eq, Option.isSome_map, slice?_isSome]

theorem u16At?_eq_some {v : UInt16} :
    bs.u16At? off = some v ↔ off + 2 ≤ bs.size ∧ bs.field off 2 = v.toNat := by
  simp only [u16At?, Option.map_eq_some_iff, leAt?_eq_some]
  constructor
  · rintro ⟨_, ⟨hle, rfl⟩, rfl⟩
    exact ⟨hle, (bs.toNat_field16 off).symm⟩
  · rintro ⟨hle, hv⟩
    exact ⟨_, ⟨hle, hv⟩, UInt16.ofNat_toNat⟩

theorem u32At?_isSome : (bs.u32At? off).isSome ↔ off + 4 ≤ bs.size := by
  rw [u32At?, Option.isSome_map, leAt?_isSome]

theorem u32At?_eq_some {v : UInt32} :
    bs.u32At? off = some v ↔ off + 4 ≤ bs.size ∧ bs.field off 4 = v.toNat := by
  simp only [u32At?, Option.map_eq_some_iff, leAt?_eq_some]
  constructor
  · rintro ⟨_, ⟨hle, rfl⟩, rfl⟩
    exact ⟨hle, (bs.toNat_field32 off).symm⟩
  · rintro ⟨hle, hv⟩
    exact ⟨_, ⟨hle, hv⟩, UInt32.ofNat_toNat⟩

theorem u32At?_eq_none : bs.u32At? off = none ↔ bs.size < off + 4 := by
  rw [← Option.not_isSome_iff_eq_none, u32At?_isSome, Nat.not_le]

theorem u32At?_of_le (h : off + 4 ≤ bs.size) : bs.u32At? off = some (.ofNat (bs.field off 4)) :=
  u32At?_eq_some.mpr ⟨h, (bs.toNat_field32 off).symm⟩

theorem u64At?_eq_some {v : UInt64} :
    bs.u64At? off = some v ↔ off + 8 ≤ bs.size ∧ bs.field off 8 = v.toNat := by
  simp only [u64At?, Option.map_eq_some_iff, leAt?_eq_some]
  constructor
  · rintro ⟨_, ⟨hle, rfl⟩, rfl⟩
    exact ⟨hle, (bs.toNat_field64 off).symm⟩
  · rintro ⟨hle, hv⟩
    exact ⟨_, ⟨hle, hv⟩, UInt64.ofNat_toNat⟩

theorem u64At?_of_le (h : off + 8 ≤ bs.size) : bs.u64At? off = some (.ofNat (bs.field off 8)) :=
  u64At?_eq_some.mpr ⟨h, (bs.toNat_field64 off).symm⟩

-- The lemmas above say all about it; comparing two places must not start to compute what is there.
attribute [irreducible] field

end BootLoader.Bytes
