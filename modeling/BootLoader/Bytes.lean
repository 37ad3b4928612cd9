/-!
Byte strings. They are packed, and every fact about them is stated on the list of their bytes,
`toList`. On top of that: slices, little-endian numbers, and the byte sum that firmware tables use
as a checksum. A reader answers `none` when the bytes it needs are not there.
-/

namespace BootLoader

structure Bytes where
  packed : ByteArray
deriving Inhabited

namespace Bytes

instance : DecidableEq Bytes
  | ⟨a⟩, ⟨b⟩ => match ByteArray.instDecidableEq a b with
    | isTrue h => isTrue (congrArg Bytes.mk h)
    | isFalse h => isFalse fun hab => h (congrArg Bytes.packed hab)

def toList (bs : Bytes) : List UInt8 := bs.packed.data.toList

def ofList (l : List UInt8) : Bytes := ⟨l.toByteArray⟩

def empty : Bytes := ⟨.empty⟩

def size (bs : Bytes) : Nat := bs.packed.size

def isEmpty (bs : Bytes) : Bool := bs.size == 0

@[inline] def get? (bs : Bytes) (i : Nat) : Option UInt8 :=
  if h : i < bs.packed.size then some bs.packed[i] else none

@[inline] def push (bs : Bytes) (b : UInt8) : Bytes := ⟨bs.packed.push b⟩

def repeated (b : UInt8) : (n : Nat) → (acc : Bytes) → Bytes
  | 0, acc => acc
  | n + 1, acc => repeated b n (acc.push b)

def filled (n : Nat) (b : UInt8) : Bytes := repeated b n .empty

def append (a b : Bytes) : Bytes := ⟨a.packed ++ b.packed⟩

instance : Append Bytes := ⟨append⟩

/-- The `len` bytes at `off`, or as many as there are. -/
def slice (bs : Bytes) (off len : Nat) : Bytes := ⟨bs.packed.extract off (off + len)⟩

def slice? (bs : Bytes) (off len : Nat) : Option Bytes :=
  if off + len ≤ bs.size then some (bs.slice off len) else none

def drop (bs : Bytes) (n : Nat) : Bytes := bs.slice n (bs.size - n)

/-- The `n` bytes from `i` on one by one; one that is not there counts as zero. -/
def listFrom (bs : Bytes) : (i n : Nat) → List UInt8
  | _, 0 => []
  | i, n + 1 => (bs.get? i).getD 0 :: bs.listFrom (i + 1) n

def overwrite (bs : Bytes) (off : Nat) (data : Bytes) : Bytes :=
  ⟨data.packed.copySlice 0 bs.packed off data.size⟩

@[inline] def fold {β : Type} (f : β → UInt8 → β) (b : β) (bs : Bytes) : β := bs.packed.foldl f b

/-- Sum modulo 256; a valid firmware structure sums to zero. -/
def sum (bs : Bytes) : UInt8 := bs.fold (· + ·) 0

/-- Among `n` bytes from `i` on, the first that is not `b`, with its place. -/
def deviationFrom? (bs : Bytes) (b : UInt8) : (n i : Nat) → Option (UInt8 × Nat)
  | 0, _ => none
  | n + 1, i =>
    match bs.get? i with
    | none => none
    | some found => if found = b then bs.deviationFrom? b n (i + 1) else some (found, i)

def deviation? (bs : Bytes) (b : UInt8) : Option (UInt8 × Nat) := bs.deviationFrom? b bs.size 0

/-! ## The view -/

theorem toList_mk (a : ByteArray) : (⟨a⟩ : Bytes).toList = a.data.toList := rfl

@[simp] theorem length_toList (bs : Bytes) : bs.toList.length = bs.size := rfl

/-- Byte strings with the same bytes are the same. -/
theorem ext_toList {a b : Bytes} (h : a.toList = b.toList) : a = b := by
  obtain ⟨a⟩ := a
  obtain ⟨b⟩ := b
  rw [toList_mk, toList_mk, Array.toList_inj] at h
  rw [ByteArray.ext h]

@[simp] theorem toList_ofList (l : List UInt8) : (ofList l).toList = l := by
  rw [ofList, toList_mk, List.toList_data_toByteArray]

@[simp] theorem size_ofList (l : List UInt8) : (ofList l).size = l.length := by
  rw [← length_toList, toList_ofList]

@[simp] theorem toList_empty : empty.toList = [] := rfl

@[simp] theorem size_empty : empty.size = 0 := rfl

@[simp] theorem toList_append (a b : Bytes) : (a ++ b).toList = a.toList ++ b.toList :=
  ByteArray.toList_data_append

@[simp] theorem toList_push (bs : Bytes) (b : UInt8) : (bs.push b).toList = bs.toList ++ [b] := by
  rw [push, toList_mk, ByteArray.data_push, Array.toList_push]
  rfl

theorem toList_repeated (b : UInt8) (n : Nat) (acc : Bytes) :
    (repeated b n acc).toList = acc.toList ++ List.replicate n b := by
  induction n generalizing acc with
  | zero => rw [repeated, List.replicate_zero, List.append_nil]
  | succ n ih =>
    rw [repeated, ih, toList_push, List.append_assoc, List.replicate_succ, List.singleton_append]

@[simp] theorem toList_filled (n : Nat) (b : UInt8) :
    (filled n b).toList = List.replicate n b := by
  rw [filled, toList_repeated, toList_empty, List.nil_append]

@[simp] theorem size_filled (n : Nat) (b : UInt8) : (filled n b).size = n := by
  rw [← length_toList, toList_filled, List.length_replicate]

@[simp] theorem toList_slice (bs : Bytes) (off len : Nat) :
    (bs.slice off len).toList = (bs.toList.drop off).take len := by
  rw [slice, toList_mk, ByteArray.data_extract, Array.toList_extract, List.extract_eq_take_drop,
    Nat.add_sub_cancel_left]
  rfl

theorem size_slice {bs : Bytes} {off len : Nat} (h : off + len ≤ bs.size) :
    (bs.slice off len).size = len := by
  rw [← length_toList, toList_slice, List.length_take, List.length_drop, length_toList]
  omega

theorem slice?_eq_some {bs s : Bytes} {off len : Nat} :
    bs.slice? off len = some s ↔ off + len ≤ bs.size ∧ bs.slice off len = s := by
  unfold slice?
  split
  · rename_i h
    rw [Option.some.injEq]
    exact ⟨fun he => ⟨h, he⟩, And.right⟩
  · rename_i h
    exact ⟨nofun, fun hs => absurd hs.1 h⟩

theorem slice?_isSome {bs : Bytes} {off len : Nat} :
    (bs.slice? off len).isSome ↔ off + len ≤ bs.size := by
  unfold slice?; split <;> simp_all

@[simp] theorem toList_drop (bs : Bytes) (n : Nat) : (bs.drop n).toList = bs.toList.drop n := by
  rw [drop, toList_slice, ← length_toList, ← List.length_drop, List.take_length]

@[simp] theorem toList_overwrite (bs data : Bytes) (off : Nat) :
    (bs.overwrite off data).toList =
      bs.toList.take off ++ data.toList ++ bs.toList.drop (off + data.size) := by
  have hd : data.packed.data.size = data.size := rfl
  have hb : bs.packed.data.size = bs.toList.length := rfl
  simp only [overwrite, toList_mk, ByteArray.copySlice, Array.toList_append,
    Array.toList_extract, List.extract_eq_take_drop, Nat.sub_zero, hd, Nat.min_self, hb,
    Nat.zero_add, List.drop_zero]
  congr 1
  · congr 1
    rw [← length_toList]
    exact List.take_length
  · rw [← List.length_drop]
    exact List.take_length

theorem get?_eq (bs : Bytes) (i : Nat) : bs.get? i = bs.toList[i]? := by
  unfold get?
  split
  · rename_i h
    exact (List.getElem?_eq_getElem h).symm
  · rename_i h
    exact (List.getElem?_eq_none (Nat.not_lt.mp h)).symm

@[simp] theorem length_listFrom (bs : Bytes) (i n : Nat) : (bs.listFrom i n).length = n := by
  induction n generalizing i with
  | zero => rfl
  | succ n ih => rw [listFrom, List.length_cons, ih]

theorem listFrom_eq {bs : Bytes} {i n : Nat} (h : i + n ≤ bs.size) :
    bs.listFrom i n = (bs.slice i n).toList := by
  rw [toList_slice]
  induction n generalizing i with
  | zero => rw [listFrom, List.take_zero]
  | succ n ih =>
    have hi : i < bs.toList.length := by rw [length_toList]; omega
    rw [listFrom, get?_eq, List.getElem?_eq_getElem hi, Option.getD_some,
      List.drop_eq_getElem_cons hi, List.take_succ_cons, ih (by omega)]

theorem foldlM_loop {β : Type} (f : β → UInt8 → Id β) (a : ByteArray) (n i : Nat) (b : β)
    (h : n + i = a.size) :
    ByteArray.foldlM.loop f a a.size (Nat.le_refl _) n i b = (a.data.toList.drop i).foldlM f b := by
  induction n generalizing i b with
  | zero =>
    have hi : ¬ i < a.size := by omega
    have hl : a.data.toList.length ≤ i := Nat.not_lt.mp hi
    rw [ByteArray.foldlM.loop, dif_neg hi, List.drop_of_length_le hl, List.foldlM_nil]
  | succ n ih =>
    have hi : i < a.size := by omega
    have hl : i < a.data.toList.length := hi
    rw [ByteArray.foldlM.loop, dif_pos hi, List.drop_eq_getElem_cons hl, List.foldlM_cons]
    exact ih (i + 1) _ (by omega)

theorem fold_eq {β : Type} (f : β → UInt8 → β) (b : β) (bs : Bytes) :
    bs.fold f b = bs.toList.foldl f b := by
  simp only [fold, ByteArray.foldl, ByteArray.foldlM, Nat.le_refl, dite_true, Nat.sub_zero]
  rw [foldlM_loop _ _ _ _ _ rfl, List.drop_zero]
  exact List.idRun_foldlM ..

theorem sum_eq (bs : Bytes) : bs.sum = bs.toList.foldl (· + ·) 0 := fold_eq ..

/-! ## Numbers -/

/-- The number whose little-endian digits to base 256 are the given bytes. -/
def leNat : List UInt8 → Nat
  | [] => 0
  | b :: bs => b.toNat + 256 * leNat bs

/-- The lowest `n` little-endian digits of `v` to base 256. -/
def ofNatLE : (n v : Nat) → List UInt8
  | 0, _ => []
  | n + 1, v => UInt8.ofNat v :: ofNatLE n (v / 256)

def leAt? (bs : Bytes) (off n : Nat) : Option Nat :=
  if off + n ≤ bs.size then some (leNat (bs.listFrom off n)) else none

def u16At? (bs : Bytes) (off : Nat) : Option UInt16 := (bs.leAt? off 2).map UInt16.ofNat

def u32At? (bs : Bytes) (off : Nat) : Option UInt32 := (bs.leAt? off 4).map UInt32.ofNat

def u64At? (bs : Bytes) (off : Nat) : Option UInt64 := (bs.leAt? off 8).map UInt64.ofNat

theorem leAt?_eq (bs : Bytes) (off n : Nat) :
    bs.leAt? off n = (bs.slice? off n).map fun s => leNat s.toList := by
  unfold leAt? slice?
  split
  · rename_i h
    rw [Option.map_some, listFrom_eq h]
  · rfl

@[simp] theorem length_ofNatLE (n v : Nat) : (ofNatLE n v).length = n := by
  induction n generalizing v with
  | zero => rfl
  | succ n ih => simp [ofNatLE, ih]

/-- Writing a number and reading it back loses what does not fit into the `n` bytes. -/
theorem leNat_ofNatLE (n v : Nat) : leNat (ofNatLE n v) = v % 1 <<< (8 * n) := by
  rw [Nat.one_shiftLeft, Nat.pow_mul]
  induction n generalizing v with
  | zero => simp [ofNatLE, leNat, Nat.mod_one]
  | succ n ih =>
    have h := Nat.mod_mul (x := v) (a := 256) (b := 256 ^ n)
    simp [ofNatLE, leNat, ih, UInt8.toNat_ofNat', Nat.pow_succ, Nat.mul_comm (256 ^ n)]
    omega

theorem leNat_lt (bs : List UInt8) : leNat bs < 1 <<< (8 * bs.length) := by
  rw [Nat.one_shiftLeft, Nat.pow_mul]
  change leNat bs < 256 ^ bs.length
  induction bs with
  | nil => simp [leNat]
  | cons b bs ih =>
    have := b.toNat_lt
    simp only [leNat, List.length_cons, Nat.pow_succ]
    omega

/-- Reading a number and writing it back gives the same bytes. -/
theorem ofNatLE_leNat (bs : List UInt8) : ofNatLE bs.length (leNat bs) = bs := by
  induction bs with
  | nil => rfl
  | cons b bs ih =>
    have hb := b.toNat_lt
    have hd : (b.toNat + 256 * leNat bs) / 256 = leNat bs := by omega
    have hm : UInt8.ofNat (b.toNat + 256 * leNat bs) = b := by
      apply UInt8.toNat_inj.mp
      rw [UInt8.toNat_ofNat']
      omega
    simp [ofNatLE, leNat, hd, hm, ih]

end Bytes

end BootLoader
