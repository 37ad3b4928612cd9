import BootLoader.Memory.Mapping

/-! What a write does to the bytes of a memory. A write that succeeds puts its bytes at their
addresses and leaves every other byte alone, provided that no two windows share an address: else a
byte might be read through another window than the one it was written through. -/

namespace BootLoader

theorem Bytes.get?_overwrite {bs data : Bytes} {off : Nat} (h : off + data.size ≤ bs.size) (i : Nat) :
    (bs.overwrite off data).get? i =
      if off ≤ i ∧ i < off + data.size then data.get? (i - off) else bs.get? i := by
  have hoff : (bs.toList.take off).length = off := by
    rw [List.length_take, length_toList]; omega
  rw [get?_eq, toList_overwrite, List.append_assoc, List.getElem?_append, hoff]
  by_cases hlt : i < off
  · rw [if_pos hlt, if_neg (by omega), List.getElem?_take_of_lt hlt, get?_eq]
  · rw [if_neg hlt, List.getElem?_append, length_toList]
    by_cases hin : i < off + data.size
    · rw [if_pos (by omega), if_pos ⟨by omega, hin⟩, get?_eq]
    · rw [if_neg (by omega), if_neg (by omega), List.getElem?_drop, get?_eq]
      congr 1; omega

theorem Bytes.size_overwrite {bs data : Bytes} {off : Nat} (h : off + data.size ≤ bs.size) :
    (bs.overwrite off data).size = bs.size := by
  rw [← length_toList, toList_overwrite]
  simp only [List.length_append, List.length_take, List.length_drop, length_toList]
  omega

theorem Bytes.get?_isSome {bs : Bytes} {i : Nat} : (bs.get? i).isSome ↔ i < bs.size := by
  rw [get?_eq, isSome_getElem?, length_toList]

def Region.Holds (r : Region) (x : Nat) : Prop := r.start.toNat ≤ x ∧ x < r.start.toNat + r.len

instance (r : Region) (x : Nat) : Decidable (r.Holds x) := inferInstanceAs (Decidable (_ ∧ _))

namespace Window

def limit (w : Window) : Nat := w.base.toNat + w.bytes.size

def Holds (w : Window) (x : Nat) : Prop := w.base.toNat ≤ x ∧ x < w.limit

theorem byte?_isSome {w : Window} {x : Nat} : (w.byte? x).isSome ↔ w.Holds x := by
  unfold byte? Holds limit
  split
  · rw [Bytes.get?_isSome]; omega
  · simp only [Option.isSome_none, Bool.false_eq_true, false_iff]; omega

theorem offset?_eq_some {w : Window} {a : Address} {n off : Nat} :
    w.offset? a n = some off ↔
      w.base.toNat ≤ a.toNat ∧ a.toNat + n ≤ w.limit ∧ off = a.toNat - w.base.toNat := by
  unfold offset? limit
  split
  · rw [Option.some.injEq]; omega
  · simp only [reduceCtorEq, false_iff]; omega

theorem byte?_put {w : Window} {a : Address} {data : Bytes} {off : Nat}
    (h : w.offset? a data.size = some off) (x : Nat) :
    (w.put off data).byte? x =
      if a.toNat ≤ x ∧ x < a.toNat + data.size then data.get? (x - a.toNat) else w.byte? x := by
  obtain ⟨hbase, hlimit, rfl⟩ := offset?_eq_some.mp h
  unfold limit at hlimit
  unfold byte? put
  by_cases hx : w.base.toNat ≤ x
  · simp only [if_pos hx]
    rw [Bytes.get?_overwrite (by omega)]
    by_cases hin : a.toNat ≤ x ∧ x < a.toNat + data.size
    · rw [if_pos (by omega), if_pos hin]
      congr 1; omega
    · rw [if_neg (by omega), if_neg hin]
  · simp only [if_neg hx]
    rw [if_neg (by omega)]

theorem limit_put {w : Window} {a : Address} {data : Bytes} {off : Nat}
    (h : w.offset? a data.size = some off) : (w.put off data).limit = w.limit := by
  obtain ⟨hbase, hlimit, rfl⟩ := offset?_eq_some.mp h
  unfold limit at hlimit
  exact congrArg (w.base.toNat + ·) (Bytes.size_overwrite (by omega))

end Window

namespace Memory

/-- First address and limit of each window: what no write changes. -/
def extents (m : Memory) : List (Nat × Nat) := m.windows.map fun w => (w.base.toNat, w.limit)

def Apart (m : Memory) : Prop := m.windows.Pairwise fun v w => ∀ x, v.Holds x → ¬ w.Holds x

/-- No two windows share an address, and the last address of all is in none. -/
structure Orderly (m : Memory) : Prop where
  apart : m.windows.Pairwise fun v w => ∀ x, v.Holds x → ¬ w.Holds x
  bounded : ∀ w ∈ m.windows, w.limit < Address.space

/-- Same windows, and the same bytes in them but for those at the addresses `P`. -/
structure AgreesOff (P : Nat → Prop) (m m' : Memory) : Prop where
  extents : m'.extents = m.extents
  byte? : ∀ x, ¬ P x → m'.byte? x = m.byte? x

variable {P Q : Nat → Prop} {m m' m'' : Memory}

theorem AgreesOff.refl (m : Memory) : AgreesOff P m m := ⟨rfl, fun _ _ => rfl⟩

theorem AgreesOff.trans (h : AgreesOff P m m') (h' : AgreesOff P m' m'') : AgreesOff P m m'' :=
  ⟨h'.extents.trans h.extents, fun x hx => (h'.byte? x hx).trans (h.byte? x hx)⟩

theorem AgreesOff.mono (hPQ : ∀ x, P x → Q x) (h : AgreesOff P m m') : AgreesOff Q m m' :=
  ⟨h.extents, fun x hx => h.byte? x fun hp => hx (hPQ x hp)⟩

theorem byte?_isSome {x : Nat} : (m.byte? x).isSome ↔ ∃ w ∈ m.windows, w.Holds x := by
  simp only [byte?, List.isSome_findSome?, List.any_eq_true, Window.byte?_isSome]

theorem byte?_isSome_iff_extents {x : Nat} :
    (m.byte? x).isSome ↔ ∃ e ∈ m.extents, e.1 ≤ x ∧ x < e.2 := by
  rw [byte?_isSome]
  constructor
  · rintro ⟨w, hw, hx⟩
    exact ⟨_, List.mem_map_of_mem hw, hx⟩
  · rintro ⟨e, he, hx⟩
    obtain ⟨w, hw, rfl⟩ := List.mem_map.mp he
    exact ⟨w, hw, hx⟩

theorem apart_iff_extents : m.Apart ↔
    m.extents.Pairwise fun d e => ∀ x, d.1 ≤ x ∧ x < d.2 → ¬ (e.1 ≤ x ∧ x < e.2) := by
  unfold extents
  rw [List.pairwise_map]
  rfl

theorem orderly_iff_extents : m.Orderly ↔
    m.extents.Pairwise (fun d e => ∀ x, d.1 ≤ x ∧ x < d.2 → ¬ (e.1 ≤ x ∧ x < e.2)) ∧
      ∀ e ∈ m.extents, e.2 < Address.space := by
  rw [← apart_iff_extents]
  unfold extents
  rw [List.forall_mem_map]
  exact ⟨fun h => ⟨h.apart, h.bounded⟩, fun h => ⟨h.1, h.2⟩⟩

theorem Apart.of_extents (hm : m.Apart) (h : m'.extents = m.extents) : m'.Apart := by
  rw [apart_iff_extents, h]
  exact apart_iff_extents.mp hm

theorem Orderly.of_extents (hm : m.Orderly) (h : m'.extents = m.extents) : m'.Orderly := by
  rw [orderly_iff_extents, h]
  exact orderly_iff_extents.mp hm

theorem isSome_of_extents (h : m'.extents = m.extents) (x : Nat) :
    (m'.byte? x).isSome = (m.byte? x).isSome := by
  rw [Bool.eq_iff_iff, byte?_isSome_iff_extents, byte?_isSome_iff_extents, h]

theorem isMapped_iff_extents {a : Address} {n : Nat} :
    m.isMapped a n ↔ ∃ e ∈ m.extents, e.1 ≤ a.toNat ∧ a.toNat + n ≤ e.2 := by
  simp only [isMapped, extents, List.any_eq_true, Option.isSome_iff_exists, Window.offset?_eq_some,
    exists_and_left, exists_eq, and_true]
  constructor
  · rintro ⟨w, hw, hbase, hlimit⟩
    exact ⟨_, List.mem_map_of_mem hw, hbase, hlimit⟩
  · rintro ⟨e, he, hbase, hlimit⟩
    obtain ⟨w, hw, rfl⟩ := List.mem_map.mp he
    exact ⟨w, hw, hbase, hlimit⟩

theorem isMapped_of_extents (h : m'.extents = m.extents) (a : Address) (n : Nat) :
    m'.isMapped a n = m.isMapped a n := by
  rw [Bool.eq_iff_iff, isMapped_iff_extents, isMapped_iff_extents, h]

theorem AgreesOff.eq_of_unmapped (h : AgreesOff P m m') {x : Nat} (hx : ¬ (m.byte? x).isSome) :
    m'.byte? x = m.byte? x := by
  have hx' : ¬ (m'.byte? x).isSome := by rwa [isSome_of_extents h.extents]
  rw [Option.not_isSome_iff_eq_none.mp hx, Option.not_isSome_iff_eq_none.mp hx']

/-- Every mapped address is one that a range can reach. -/
theorem Orderly.lt_of_isSome (hm : m.Orderly) {x : Nat} (h : (m.byte? x).isSome) :
    x < Address.space - 1 := by
  obtain ⟨w, hw, hx⟩ := byte?_isSome.mp h
  have hlimit := hm.bounded w hw
  have := hx.2
  omega

/-! ## Writes -/

theorem extents_putFirst (a : Address) (data : Bytes) (ws : List Window) :
    (putFirst a data ws).2.map (fun w => (w.base.toNat, w.limit)) =
      ws.map fun w => (w.base.toNat, w.limit) := by
  induction ws with
  | nil => rfl
  | cons w ws ih =>
    rw [putFirst]
    split
    · rename_i off h
      rw [List.map_cons, List.map_cons, Window.limit_put h]
      rfl
    · exact congrArg ((w.base.toNat, w.limit) :: ·) ih

theorem extents_write (m : Memory) (a : Address) (data : Bytes) :
    (m.write a data).2.extents = m.extents := extents_putFirst a data m.windows

theorem findSome?_putFirst_off {a : Address} {data : Bytes} {x : Nat} (ws : List Window)
    (hx : ¬ (a.toNat ≤ x ∧ x < a.toNat + data.size)) :
    (putFirst a data ws).2.findSome? (·.byte? x) = ws.findSome? (·.byte? x) := by
  induction ws with
  | nil => rfl
  | cons w ws ih =>
    rw [putFirst]
    split
    · rename_i off h
      rw [List.findSome?_cons, List.findSome?_cons, Window.byte?_put h, if_neg hx]
    · rw [List.findSome?_cons, List.findSome?_cons, ih]

theorem exists_holds_of_found {a : Address} {data : Bytes} {ws : List Window} {x : Nat}
    (hfound : (putFirst a data ws).1 = true) (hx : a.toNat ≤ x ∧ x < a.toNat + data.size) :
    ∃ w ∈ ws, w.Holds x := by
  rw [putFirst_found, List.any_eq_true] at hfound
  obtain ⟨w, hw, hoff⟩ := hfound
  obtain ⟨off, hoff⟩ := Option.isSome_iff_exists.mp hoff
  obtain ⟨hbase, hlimit, -⟩ := Window.offset?_eq_some.mp hoff
  exact ⟨w, hw, by omega, by omega⟩

theorem findSome?_putFirst {a : Address} {data : Bytes} {x : Nat} {ws : List Window}
    (hapart : ws.Pairwise fun v w => ∀ x, v.Holds x → ¬ w.Holds x)
    (hfound : (putFirst a data ws).1 = true) (hx : a.toNat ≤ x ∧ x < a.toNat + data.size) :
    (putFirst a data ws).2.findSome? (·.byte? x) = data.get? (x - a.toNat) := by
  have hsome : (data.get? (x - a.toNat)).isSome := Bytes.get?_isSome.mpr (by omega)
  obtain ⟨b, hb⟩ := Option.isSome_iff_exists.mp hsome
  induction ws with
  | nil => exact absurd hfound Bool.false_ne_true
  | cons w ws ih =>
    rw [List.pairwise_cons] at hapart
    rw [putFirst] at hfound ⊢
    split
    · rename_i off h
      rw [List.findSome?_cons, Window.byte?_put h, if_pos hx, hb]
    · rename_i h
      rw [h] at hfound
      -- the window that takes the bytes comes later, so this one does not hold `x`
      obtain ⟨v, hv, hvx⟩ := exists_holds_of_found hfound hx
      have hnone : w.byte? x = none := by
        rw [← Option.not_isSome_iff_eq_none, Window.byte?_isSome]
        exact fun hwx => hapart.1 v hv x hwx hvx
      rw [List.findSome?_cons, hnone]
      exact ih hapart.2 hfound

theorem write_agreesOff (m : Memory) (a : Address) (data : Bytes) :
    AgreesOff (fun x => a.toNat ≤ x ∧ x < a.toNat + data.size) m (m.write a data).2 :=
  ⟨extents_write m a data, fun _ hx => findSome?_putFirst_off m.windows hx⟩

theorem byte?_write {a : Address} {data : Bytes} (hm : m.Apart)
    (hfound : (m.write a data).1 = true) (x : Nat) :
    (m.write a data).2.byte? x =
      if a.toNat ≤ x ∧ x < a.toNat + data.size then data.get? (x - a.toNat) else m.byte? x := by
  split
  · rename_i hx
    exact findSome?_putFirst hm hfound hx
  · rename_i hx
    exact (write_agreesOff m a data).byte? x hx

end Memory

namespace Mapping

variable {m : Memory}

theorem place_eq (m : Memory) (a : Address) (data : Bytes) :
    place m a data =
      if m.isMapped a data.size then (.ok (), (m.write a data).2)
      else (.error (.unmapped a data.size), m) := by
  have hw : write m a data = m.write a data := rfl
  have hfound := m.write_found a data
  unfold place
  rw [hw]
  rcases hres : m.write a data with ⟨found, m'⟩
  rw [hres] at hfound
  change found = _ at hfound
  cases found with
  | true => rw [if_pos hfound.symm]
  | false =>
    have hself := Memory.write_eq_self hfound.symm
    rw [hres] at hself
    rw [if_neg (by rw [← hfound]; exact Bool.false_ne_true), ← hself]

theorem place_agreesOff (m : Memory) (a : Address) (data : Bytes) :
    m.AgreesOff (fun x => a.toNat ≤ x ∧ x < a.toNat + data.size) (place m a data).2 := by
  rw [place_eq]
  split
  · exact m.write_agreesOff a data
  · exact .refl m

theorem byte?_place {a : Address} {data : Bytes} (hm : m.Apart)
    (h : (place m a data).1 = .ok ()) (x : Nat) :
    (place m a data).2.byte? x =
      if a.toNat ≤ x ∧ x < a.toNat + data.size then data.get? (x - a.toNat) else m.byte? x := by
  rw [place_eq] at h ⊢
  split
  · rename_i hmapped
    exact Memory.byte?_write hm ((m.write_found a data).trans hmapped) x
  · rename_i hmapped
    rw [if_neg hmapped] at h
    cases h

theorem copy_agreesOff (m : Memory) (dst : Address) (src : Bytes) :
    m.AgreesOff (fun x => dst.toNat ≤ x ∧ x < dst.toNat + src.size) (copy m dst src).2 := by
  unfold copy
  split
  · exact .refl m
  · exact place_agreesOff m dst src

theorem byte?_copy (hm : m.Apart) (dst : Address) (src : Bytes)
    (h : (copy m dst src).1 = .ok ()) (x : Nat) :
    (copy m dst src).2.byte? x =
      if dst.toNat ≤ x ∧ x < dst.toNat + src.size then src.get? (x - dst.toNat) else m.byte? x := by
  unfold copy at h ⊢
  split
  · rename_i hempty
    have hsize : src.size = 0 := by simpa [Bytes.isEmpty] using hempty
    rw [if_neg (by omega)]
  · rename_i hne
    rw [if_neg hne] at h
    exact byte?_place hm h x

theorem copy_of_unmapped {dst : Address} {src : Bytes} (hsize : src.size ≠ 0)
    (h : m.isMapped dst src.size = false) :
    copy m dst src = (.error (.unmapped dst src.size), m) := by
  have hne : ¬ src.isEmpty = true := by simpa [Bytes.isEmpty] using hsize
  rw [copy, if_neg hne, place_eq, h]
  rfl

/-- A copy fails where there are bytes to copy and no window holds the range, and leaves the memory
as it was. -/
theorem copy_eq_error {dst : Address} {src : Bytes} {e : MemoryError}
    (h : (copy m dst src).1 = .error e) :
    e = .unmapped dst src.size ∧ src.size ≠ 0 ∧ m.isMapped dst src.size = false ∧
      (copy m dst src).2 = m := by
  unfold copy at h ⊢
  split at h
  · cases h
  · rename_i hne
    have hsize : src.size ≠ 0 := by simpa [Bytes.isEmpty] using hne
    rw [place_eq] at h
    rw [if_neg hne, place_eq]
    split at h
    · cases h
    · rename_i hmapped
      cases h
      rw [if_neg hmapped]
      exact ⟨rfl, hsize, Bool.not_eq_true _ ▸ hmapped, rfl⟩

theorem fill_agreesOff (m : Memory) (r : Region) (value : UInt8) :
    m.AgreesOff r.Holds (fill m r value).2 := by
  unfold fill
  split
  · exact .refl m
  · split
    · exact .refl m
    · have h := place_agreesOff m r.start (.filled r.len value)
      rw [Bytes.size_filled] at h
      exact h

end Mapping

end BootLoader
