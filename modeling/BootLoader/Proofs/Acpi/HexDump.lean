import BootLoader.Acpi.HexDump
import Mathlib.Data.List.Basic

/-! A dump of byte code loses nothing. Each line holds two digits a byte, of 32 bytes but for the
last, and the digits of all lines together, read back two by two, are the bytes. -/

namespace BootLoader

namespace Text.Hex

def isUpperDigit (c : Char) : Bool := ('0' ≤ c && c ≤ '9') || ('A' ≤ c && c ≤ 'F')

def upperValue? (c : Char) : Option Nat :=
  if '0' ≤ c ∧ c ≤ '9' then some (c.toNat - 48)
  else if 'A' ≤ c ∧ c ≤ 'F' then some (c.toNat - 55)
  else none

/-- The bytes that digits spell two by two. -/
def bytes? : List Char → Option (List UInt8)
  | [] => some []
  | [_] => none
  | high :: low :: rest =>
    match upperValue? high, upperValue? low, bytes? rest with
    | some h, some l, some bs => some (.ofNat (16 * h + l) :: bs)
    | _, _, _ => none

theorem upperValue?_upperDigit {n : Nat} (h : n < 16) : upperValue? (upperDigit n) = some n := by
  have hall : ∀ i : Fin 16, upperValue? (upperDigit i) = some i := by decide
  exact hall ⟨n, h⟩

theorem isUpperDigit_upperDigit {n : Nat} (h : n < 16) : isUpperDigit (upperDigit n) = true := by
  have hall : ∀ i : Fin 16, isUpperDigit (upperDigit i) = true := by decide
  exact hall ⟨n, h⟩

def pairs (bs : List UInt8) : List Char := bs.flatMap fun b => [highDigit b, lowDigit b]

theorem bytes?_pairs (bs : List UInt8) : bytes? (pairs bs) = some bs := by
  induction bs with
  | nil => rfl
  | cons b bs ih =>
    have hb := b.toNat_lt
    have hhigh : upperValue? (highDigit b) = some (b.toNat / 16) := upperValue?_upperDigit (by omega)
    have hlow : upperValue? (lowDigit b) = some (b.toNat % 16) := upperValue?_upperDigit (by omega)
    have hbyte : UInt8.ofNat (16 * (b.toNat / 16) + b.toNat % 16) = b := by
      rw [Nat.div_add_mod, UInt8.ofNat_toNat]
    change bytes? (highDigit b :: lowDigit b :: pairs bs) = _
    simp only [bytes?, hhigh, hlow, ih, hbyte]

theorem isUpperDigit_of_mem_pairs {bs : List UInt8} {c : Char} (hc : c ∈ pairs bs) :
    isUpperDigit c = true := by
  rw [pairs, List.mem_flatMap] at hc
  obtain ⟨b, -, hc⟩ := hc
  have hb := b.toNat_lt
  rcases List.mem_pair.mp hc with rfl | rfl
  · exact isUpperDigit_upperDigit (by omega)
  · exact isUpperDigit_upperDigit (by omega)

theorem length_pairs (bs : List UInt8) : (pairs bs).length = 2 * bs.length := by
  induction bs with
  | nil => rfl
  | cons b bs ih =>
    change (pairs bs).length + 2 = _
    rw [ih, List.length_cons]
    omega

end Text.Hex

namespace Acpi.HexDump

open Text

theorem line_eq (row : Bytes) : line row = String.ofList (Hex.pairs row.toList) ++ "\n\r" := by
  have hall : ∀ (bs : List UInt8) (s : String),
      bs.foldl (fun s b => (s.push (Hex.highDigit b)).push (Hex.lowDigit b)) s =
        s ++ String.ofList (Hex.pairs bs) := by
    intro bs
    induction bs with
    | nil => simp [Hex.pairs]
    | cons b bs ih =>
      intro s
      rw [List.foldl_cons, ih, ← String.toList_inj]
      simp [Hex.pairs]
  rw [line, Bytes.fold_eq, hall, String.empty_append]

/-- The rows one after the other are the bytes, as far as they go. -/
theorem flatMap_slices (bs : Bytes) (k : Nat) :
    (List.range k).flatMap (fun i => (bs.slice (bytesPerLine * i) bytesPerLine).toList) =
      bs.toList.take (bytesPerLine * k) := by
  induction k with
  | zero => rfl
  | succ k ih =>
    rw [List.range_succ, List.flatMap_append, ih, List.flatMap_singleton, Bytes.toList_slice,
      Nat.mul_succ, List.take_add]

theorem length_rows (bs : Bytes) : (rows bs).length = (bs.size + 31) / 32 := by
  rw [rows, List.length_map, List.length_range]
  rfl

theorem flatMap_rows (bs : Bytes) : (rows bs).flatMap Bytes.toList = bs.toList := by
  rw [rows, List.flatMap_map, flatMap_slices]
  apply List.take_of_length_le
  rw [Bytes.length_toList]
  unfold bytesPerLine
  omega

/-- Every row is full but the last. -/
theorem size_of_rows {bs row : Bytes} {i : Nat} (hi : (rows bs)[i]? = some row) :
    row.size = if i + 1 = (rows bs).length then bs.size - 32 * ((rows bs).length - 1) else 32 := by
  have hlt : i < (rows bs).length := (List.getElem?_eq_some_iff.mp hi).1
  have hrow : bs.slice (32 * i) 32 = row := by
    rw [rows, List.getElem?_map, List.getElem?_range (by simpa [rows] using hlt)] at hi
    exact Option.some.inj hi
  rw [← hrow, ← Bytes.length_toList, Bytes.toList_slice, List.length_take, List.length_drop,
    Bytes.length_toList]
  rw [length_rows] at hlt ⊢
  split <;> omega

def withoutEnds (s : String) : List Char := s.toList.filter fun c => c != '\n' && c != '\r'

theorem withoutEnds_line (row : Bytes) : withoutEnds (line row) = Hex.pairs row.toList := by
  have hall :
      (Hex.pairs row.toList).filter (fun c => c != '\n' && c != '\r') = Hex.pairs row.toList := by
    rw [List.filter_eq_self]
    intro c hc
    have hdigit := Hex.isUpperDigit_of_mem_pairs hc
    rw [Bool.and_eq_true, bne_iff_ne, bne_iff_ne]
    constructor
    · rintro rfl
      exact absurd hdigit (by decide)
    · rintro rfl
      exact absurd hdigit (by decide)
  rw [withoutEnds, line_eq, String.toList_append, String.toList_ofList, List.filter_append, hall]
  simp

theorem withoutEnds_render (bs : Bytes) : withoutEnds (render bs) = Hex.pairs bs.toList := by
  calc withoutEnds (render bs)
      = (rows bs).flatMap fun row => withoutEnds (line row) := by
        rw [withoutEnds, render, String.toList_join, List.flatMap_map, List.filter_flatMap]
        rfl
    _ = (rows bs).flatMap fun row => Hex.pairs row.toList := by simp only [withoutEnds_line]
    _ = Hex.pairs ((rows bs).flatMap Bytes.toList) := by simp only [Hex.pairs, List.flatMap_assoc]
    _ = Hex.pairs bs.toList := by rw [flatMap_rows]

/-- What a dump says can be read off it. -/
theorem bytes?_render (bs : Bytes) : Hex.bytes? (withoutEnds (render bs)) = some bs.toList := by
  rw [withoutEnds_render, Hex.bytes?_pairs]

theorem render_injective : Function.Injective render := by
  intro bs bs' h
  have hread := bytes?_render bs
  rw [h, bytes?_render] at hread
  exact (Bytes.ext_toList (Option.some.inj hread)).symm

theorem length_render (bs : Bytes) : (render bs).length = 2 * bs.size + 2 * ((bs.size + 31) / 32) := by
  have hall : ∀ l : List Bytes, (String.join (l.map line)).length =
      2 * (l.flatMap Bytes.toList).length + 2 * l.length := by
    intro l
    induction l with
    | nil => rfl
    | cons row l ih =>
      have hends : "\n\r".length = 2 := by decide
      rw [List.map_cons, String.join_cons, String.length_append, ih, line_eq, String.length_append,
        hends, String.length_ofList, Hex.length_pairs, List.flatMap_cons, List.length_append,
        List.length_cons]
      omega
  rw [render, hall, flatMap_rows, Bytes.length_toList, length_rows]

/-- A dump is as many lines as the bytes fill, each of capital digits and closed by line feed and
carriage return: 64 digits on a line but the last, which has what is left. Without the ends of the
lines the digits spell the bytes two by two, so different bytes have different dumps. -/
theorem render_lossless (bs : Bytes) :
    (∃ lines : List String, render bs = String.join (lines.map (· ++ "\n\r")) ∧
      lines.length = (bs.size + 31) / 32 ∧
      ∀ i l, lines[i]? = some l → (∀ c ∈ l.toList, Hex.isUpperDigit c = true) ∧
        l.length = if i + 1 = lines.length then 2 * (bs.size - 32 * (lines.length - 1)) else 64) ∧
      (render bs).length = 2 * bs.size + 2 * ((bs.size + 31) / 32) ∧
      Hex.bytes? (withoutEnds (render bs)) = some bs.toList ∧
      ∀ bs', render bs' = render bs → bs' = bs := by
  refine ⟨⟨(rows bs).map fun row => String.ofList (Hex.pairs row.toList), ?_, ?_, ?_⟩, length_render bs,
    bytes?_render bs, fun bs' h => render_injective h⟩
  · rw [render, List.map_map]
    congr 1
    apply List.map_congr_left
    intro row _
    exact line_eq row
  · rw [List.length_map, length_rows]
  · intro i l hl
    rw [List.getElem?_map, Option.map_eq_some_iff] at hl
    obtain ⟨row, hrow, rfl⟩ := hl
    refine ⟨fun c hc => Hex.isUpperDigit_of_mem_pairs (by simpa using hc), ?_⟩
    rw [String.length_ofList, Hex.length_pairs, Bytes.length_toList, size_of_rows hrow, List.length_map]
    split <;> rfl

end Acpi.HexDump

end BootLoader
