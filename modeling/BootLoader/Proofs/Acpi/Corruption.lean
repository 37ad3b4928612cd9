import BootLoader.Proofs.Acpi.Walk

/-! A root pointer with one byte changed. Whatever the byte says, it counts in a sum over a stretch
whose extent it does not tell, and a sum that was zero no longer is. -/

namespace BootLoader

/-! ## Sums -/

namespace Bytes

variable {a b : Bytes} {i : Nat}

/-- Each byte has its part in the sum. -/
theorem sum_of_split {front back : List UInt8} {x : UInt8} (h : a.toList = front ++ x :: back) :
    a.sum = front.foldl (· + ·) 0 + x + back.foldl (· + ·) 0 := by
  have hback : ∀ s : UInt8, back.foldl (· + ·) s = s + back.foldl (· + ·) 0 := fun s =>
    calc
      back.foldl (· + ·) s = back.foldl (· + ·) (s + 0) := by rw [UInt8.add_zero]
      _ = s + back.foldl (· + ·) 0 := List.foldl_assoc
  rw [sum_eq, h, List.foldl_append, List.foldl_cons, hback]

/-- Two byte strings that differ in one byte have different sums. -/
theorem sum_ne_of_differ (hsize : b.size = a.size) (hi : i < a.size) (hat : b.get? i ≠ a.get? i)
    (hoff : ∀ j < a.size, j ≠ i → b.get? j = a.get? j) : b.sum ≠ a.sum := by
  have ha : i < a.toList.length := hi
  have hb : i < b.toList.length := by rwa [length_toList, hsize]
  have hsame : ∀ j, j ≠ i → b.toList[j]? = a.toList[j]? := by
    intro j hj
    by_cases hlt : j < a.size
    · rw [← get?_eq, ← get?_eq]
      exact hoff j hlt hj
    · have hnone : a.toList.length ≤ j := Nat.not_lt.mp hlt
      have hnone' : b.toList.length ≤ j := by rwa [length_toList, hsize]
      rw [List.getElem?_eq_none hnone, List.getElem?_eq_none hnone']
  have hfront : b.toList.take i = a.toList.take i := by
    refine List.ext_getElem? fun j => ?_
    rw [List.getElem?_take, List.getElem?_take]
    split
    · exact hsame j (by omega)
    · rfl
  have hback : b.toList.drop (i + 1) = a.toList.drop (i + 1) := by
    refine List.ext_getElem? fun j => ?_
    rw [List.getElem?_drop, List.getElem?_drop]
    exact hsame _ (by omega)
  have hsplit : ∀ (l : List UInt8) (h : i < l.length), l = l.take i ++ l[i] :: l.drop (i + 1) :=
    fun l h => by rw [← List.drop_eq_getElem_cons h, List.take_append_drop]
  rw [get?_eq, get?_eq, List.getElem?_eq_getElem ha, List.getElem?_eq_getElem hb, Ne,
    Option.some.injEq] at hat
  rw [sum_of_split (hsplit _ ha), sum_of_split (hsplit _ hb), hfront, hback]
  intro heq
  exact hat ((UInt8.add_right_inj _).mp ((UInt8.add_left_inj _).mp heq))

end Bytes

/-! ## Memories -/

namespace Memory

variable {m m' : Memory} {x : Nat}

/-- Same windows, and the same bytes in them but for the one at the address. -/
structure DiffersAt (x : Nat) (m m' : Memory) : Prop extends m.AgreesOff (· = x) m' where
  byte?_ne : m'.byte? x ≠ m.byte? x

/-- Whoever writes another byte than the one that is there makes such a difference. -/
theorem differsAt_write (hm : m.Apart) {a : Address} {b : UInt8} (hmapped : m.isMapped a 1 = true)
    (hb : m.byte? a.toNat ≠ some b) : m.DiffersAt a.toNat (m.write a (.ofList [b])).2 := by
  have hone : (Bytes.ofList [b]).size = 1 := Bytes.size_ofList _
  have hfound : (m.write a (.ofList [b])).1 = true := by rw [write_found, hone, hmapped]
  refine ⟨(m.write_agreesOff a (.ofList [b])).mono fun y hy => by omega, ?_⟩
  rw [byte?_write hm hfound, if_pos (by omega), Nat.sub_self, Bytes.get?_eq, Bytes.toList_ofList]
  exact hb.symm

/-- What is read there, before and after, has different sums. -/
theorem DiffersAt.sum_ne (hm : m.Apart) {a : Address} {o n : Nat} (h : m.DiffersAt (a.toNat + o) m')
    (ho : o < n) {old new : Bytes} (hold : m.read? a n = some old) (hnew : m'.read? a n = some new) :
    new.sum ≠ old.sum := by
  have hm' : m'.Apart := hm.of_extents h.extents
  have hsize : old.size = n := size_read? hold
  refine Bytes.sum_ne_of_differ ((size_read? hnew).trans hsize.symm) (hsize ▸ ho) ?_ fun j hj hne => ?_
  · rw [get?_of_read? hm' hnew ho, get?_of_read? hm hold ho]
    exact h.byte?_ne
  · rw [hsize] at hj
    rw [get?_of_read? hm' hnew hj, get?_of_read? hm hold hj]
    exact h.byte? _ (by omega)

end Memory

/-! ## Root pointers -/

namespace Acpi.RootPointer

variable {m m' : Memory} {a : Address} {r : RootPointer}

def lengthAt (m : Memory) (a : Address) : Nat := ((m.read? a 36).map (·.field 20 4)).getD 0

theorem lengthAt_eq (hm : m.Apart) {l : Stretch} (hl : IsRoot m l) (hlong : 2 ≤ l.revision) :
    lengthAt m l.address = l.bytes.size := by
  obtain ⟨hlow, -, hlength, -⟩ := hl.long hlong
  unfold lengthAt
  rw [Memory.read?_shorter hm hl.lies (by decide) hlow, Option.map_some, Option.getD_some,
    Bytes.field_slice (by decide), Nat.zero_add, hlength]

/-- The first sum covers 20 bytes, whatever they say. -/
theorem not_isRoot_of_short (hm : m.Apart) {l l' : Stretch} (hl : IsRoot m l)
    (haddress : l'.address = l.address) {o : Nat} (h : m.DiffersAt (l.address.toNat + o) m')
    (ho : o < 20) : ¬ IsRoot m' l' := by
  intro hl'
  have hold := Memory.read?_shorter hm hl.lies (by decide) hl.atLeast
  have hnew := Memory.read?_shorter (hm.of_extents h.extents) hl'.lies (by decide) hl'.atLeast
  rw [haddress] at hnew
  exact h.sum_ne hm ho hold hnew (hl'.sum.trans hl.sum.symm)

/-- Of a stretch before and after, what has not changed at the start is the same. -/
theorem slice_of_agreesOff (hm : m.Apart) {P : Nat → Prop} (h : m.AgreesOff P m') {l l' : Stretch}
    (hl : l.In m) (hl' : l'.In m') (haddress : l'.address = l.address) {k : Nat} (hk : 0 < k)
    (hle : k ≤ l.bytes.size) (hle' : k ≤ l'.bytes.size)
    (hclear : ∀ i < k, ¬ P (l.address.toNat + i)) : l'.bytes.slice 0 k = l.bytes.slice 0 k := by
  have hnew := Memory.read?_shorter (hm.of_extents h.extents) hl' hk hle'
  rw [haddress, h.read? hm hclear, Memory.read?_shorter hm hl hk hle] at hnew
  exact (Option.some.inj hnew).symm

/-- The second sum covers as many bytes as the long form tells, and neither the revision nor the
length is behind the length. -/
theorem not_isRoot_of_long (hm : m.Apart) {l l' : Stretch} (hl : IsRoot m l)
    (haddress : l'.address = l.address) {o : Nat} (h : m.DiffersAt (l.address.toNat + o) m')
    (hlong : 2 ≤ l.revision) (hbehind : 24 ≤ o) (ho : o < l.bytes.size) : ¬ IsRoot m' l' := by
  intro hl'
  obtain ⟨hlow, -, hlength, hsum⟩ := hl.long hlong
  have halike : ∀ {k}, 0 < k → k ≤ 24 → k ≤ l'.bytes.size →
      l'.bytes.slice 0 k = l.bytes.slice 0 k := fun hk hle hle' =>
    slice_of_agreesOff hm h.toAgreesOff hl.lies hl'.lies haddress hk (by omega) hle' fun i hi => by omega
  have hrevision : l'.revision = l.revision :=
    Bytes.field_alike (halike (by decide) (by decide) hl'.atLeast) (by decide)
  obtain ⟨hlow', -, hlength', hsum'⟩ := hl'.long (hrevision ▸ hlong)
  have hsize : l'.bytes.size = l.bytes.size := by
    rw [← hlength, ← hlength']
    exact Bytes.field_alike (halike (by decide) (Nat.le_refl 24) (by omega)) (by decide)
  have hnew : m'.read? l.address l.bytes.size = some l'.bytes := by
    rw [← haddress, ← hsize]
    exact hl'.lies
  exact h.sum_ne hm ho hl.lies hnew (hsum'.trans hsum.symm)

/-- A root pointer that was found is no longer found once a byte of it has changed that a sum
covers: any of the first 20, or in the long form any behind the length. Up to revision 1 nothing
depends on what comes after the 20 bytes. -/
theorem parse_of_corrupted (hm : m.Apart) (h : parse m a = .ok r) :
    (∀ o m', m.DiffersAt (a.toNat + o) m' →
      (o < 20 ∨ 2 ≤ r.revision ∧ 24 ≤ o ∧ o < lengthAt m a) → ∃ e, parse m' a = .error e) ∧
    (r.revision < 2 → ∀ m', m.AgreesOff (a.toNat + 20 ≤ ·) m' → parse m' a = .ok r) := by
  obtain ⟨l, rfl, hl, hr⟩ := (parse_eq_ok hm).mp h
  have hlate : 2 ≤ r.revision ↔ 2 ≤ l.revision := by
    rw [UInt8.le_iff_toNat_le, hr.revision]
    rfl
  constructor
  · intro o m' hdiffers hcovered
    cases hparse : parse m' l.address with
    | error e => exact ⟨e, rfl⟩
    | ok r' =>
      obtain ⟨l', haddress, hl', -⟩ := (parse_eq_ok (hm.of_extents hdiffers.extents)).mp hparse
      rcases hcovered with ho | ⟨hlong, hbehind, ho⟩
      · exact absurd hl' (not_isRoot_of_short hm hl haddress hdiffers ho)
      · rw [hlate] at hlong
        rw [lengthAt_eq hm hl hlong] at ho
        exact absurd hl' (not_isRoot_of_long hm hl haddress hdiffers hlong hbehind ho)
  · intro hearly m' hagrees
    have hshort : l.revision < 2 := by
      rw [← UInt8.not_le, hlate] at hearly
      omega
    have hsize : l.bytes.size = 20 := hl.short hshort
    have hlies : l.In m' := by
      unfold Stretch.In
      rw [hagrees.read? hm fun i hi => by omega]
      exact hl.lies
    exact (parse_eq_ok (hm.of_extents hagrees.extents)).mpr ⟨l, rfl, { hl with lies := hlies }, hr⟩

end Acpi.RootPointer

namespace Acpi

namespace Sample

/-- A root pointer of revision 0, and four more bytes. -/
def early : Memory := ⟨[⟨.ofNat 0x1000, .ofList <|
  [0x52, 0x53, 0x44, 0x20, 0x50, 0x54, 0x52, 0x20, 0xA1] ++ .replicate 7 0 ++ [0x30, 0x10, 0, 0] ++
  [36, 0, 0, 0]⟩]⟩

def changed (m : Memory) (a : Address) (b : UInt8) : Memory := (m.write a (.ofList [b])).2

end Sample

open RootPointer in
/-- A byte of the long address is changed, and a byte behind a short root pointer. -/
theorem parse_of_corrupted_sample :
    (∃ e, parse (Sample.changed Sample.memory (.ofNat 0x101E) 7) (.ofNat 0x1000) = .error e) ∧
      parse (Sample.changed Sample.early (.ofNat 0x1014) 7) (.ofNat 0x1000) =
        .ok ⟨.ofNat 0x1000, 0, .blank 6, 0x1030, none⟩ := by
  have hlong : parse Sample.memory (.ofNat 0x1000) =
      .ok ⟨.ofNat 0x1000, 2, .blank 6, 0, some 0x1030⟩ := by decide +kernel
  have hshort : parse Sample.early (.ofNat 0x1000) =
      .ok ⟨.ofNat 0x1000, 0, .blank 6, 0x1030, none⟩ := by decide +kernel
  have hdiffers : Sample.memory.DiffersAt 0x101E (Sample.changed Sample.memory (.ofNat 0x101E) 7) :=
    Memory.differsAt_write (a := .ofNat 0x101E) (b := 7) Sample.apart_memory (by decide +kernel)
      (by decide +kernel)
  have hagrees : Sample.early.AgreesOff (0x1014 ≤ ·)
      (Sample.changed Sample.early (.ofNat 0x1014) 7) :=
    (Memory.write_agreesOff ..).mono fun _ hx => hx.1
  have hlength : 30 < lengthAt Sample.memory (.ofNat 0x1000) := by decide +kernel
  have hearly : Sample.early.Apart := List.pairwise_singleton ..
  constructor
  · refine (parse_of_corrupted Sample.apart_memory hlong).1 30 _ hdiffers ?_
    exact .inr ⟨by decide, by decide, hlength⟩
  · exact (parse_of_corrupted hearly hshort).2 (by decide) _ hagrees

end Acpi

end BootLoader
