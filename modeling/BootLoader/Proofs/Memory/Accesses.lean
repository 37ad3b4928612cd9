import BootLoader.Proofs.Memory.Fill
import Mathlib.Data.List.Induction

/-! Any number of copies, fills and checks, one after the other. What a byte is then depends on the
last access that has put something there, and whether an access has its range does not depend on the
ones before it. A check finds the first byte that is not as expected, whatever has happened before.
-/

namespace BootLoader

namespace Bytes

variable {bs : Bytes} {b : UInt8}

structure FirstOff (bs : Bytes) (b found : UInt8) (i : Nat) : Prop where
  there : bs.get? i = some found
  off : found ≠ b
  first : ∀ j < i, bs.get? j = some b

theorem deviationFrom?_of_off {i n : Nat} (hsize : i + n ≤ bs.size)
    (hdone : ∀ j < i, bs.get? j = some b) (h : ∃ j < i + n, bs.get? j ≠ some b) :
    ∃ found k, bs.deviationFrom? b n i = some (found, k) ∧ bs.FirstOff b found k := by
  induction n generalizing i with
  | zero =>
    obtain ⟨j, hj, hoff⟩ := h
    exact absurd (hdone j hj) hoff
  | succ n ih =>
    obtain ⟨found, hfound⟩ : ∃ found, bs.get? i = some found := by
      rw [← Option.isSome_iff_exists, get?_isSome]
      omega
    by_cases hb : found = b
    · have hdone' : ∀ j < i + 1, bs.get? j = some b := by
        intro j hj
        rcases Nat.lt_succ_iff_lt_or_eq.mp hj with hj | rfl
        · exact hdone j hj
        · rw [hfound, hb]
      have hrest : bs.deviationFrom? b (n + 1) i = bs.deviationFrom? b n (i + 1) := by
        simp [deviationFrom?, hfound, hb]
      rw [hrest]
      refine ih (by omega) hdone' ?_
      rwa [show i + 1 + n = i + (n + 1) by omega]
    · exact ⟨found, i, by simp [deviationFrom?, hfound, hb], hfound, hb, hdone⟩

/-- Where not every byte is as expected, the first that is not is found. -/
theorem deviation?_of_off (h : ∃ j < bs.size, bs.get? j ≠ some b) :
    ∃ found k, bs.deviation? b = some (found, k) ∧ bs.FirstOff b found k := by
  refine deviationFrom?_of_off (i := 0) (by omega) (by omega) ?_
  rwa [Nat.zero_add]

end Bytes

/-! ## One access -/

inductive Access where
  | copy (dst : Address) (src : Bytes)
  | fill (r : Region) (value : UInt8)
  | verify (r : Region) (value : UInt8)

namespace Access

def range : Access → Region
  | copy dst src => ⟨dst, src.size⟩
  | fill r _ => r
  | verify r _ => r

def put? (u : Access) (x : Nat) : Option UInt8 :=
  match u with
  | copy dst src => if Region.Holds ⟨dst, src.size⟩ x then src.get? (x - dst.toNat) else none
  | fill r value => if r.Holds x then some value else none
  | verify .. => none

def run (m : Memory) : Access → Except MemoryError Unit × Memory
  | copy dst src => Mapping.copy m dst src
  | fill r value => Mapping.fill m r value
  | verify r value => (Mapping.verify m r value, m)

end Access

namespace Memory

structure Deviates (m : Memory) (r : Region) (value found : UInt8) (x : Nat) : Prop where
  holds : r.Holds x
  there : m.byte? x = some found
  off : found ≠ value
  lowest : ∀ y < x, r.Holds y → m.byte? y = some value

/-- There is only one such byte. -/
theorem Deviates.unique {m : Memory} {r : Region} {value found found' : UInt8} {x x' : Nat}
    (h : m.Deviates r value found x) (h' : m.Deviates r value found' x') : x = x' ∧ found = found' := by
  have hnot {x x' : Nat} {found found' : UInt8} (h : m.Deviates r value found x)
      (h' : m.Deviates r value found' x') : ¬ x < x' := fun hlt =>
    h.off (Option.some.inj (h.there.symm.trans (h'.lowest x hlt h.holds)))
  have hx : x = x' := by
    have hle := hnot h h'
    have hge := hnot h' h
    omega
  subst hx
  exact ⟨rfl, Option.some.inj (h.there.symm.trans h'.there)⟩

end Memory

namespace Mapping

variable {m : Memory} {r : Region} {dst : Address} {src : Bytes} {value : UInt8}

theorem copy_of_backs (h : m.Backs ⟨dst, src.size⟩) : (copy m dst src).1 = .ok () := by
  cases hcopy : (copy m dst src).1 with
  | ok _ => rfl
  | error e =>
    obtain ⟨-, hsize, hunmapped, -⟩ := copy_eq_error hcopy
    exact absurd ((h hsize).symm.trans hunmapped) Bool.noConfusion

theorem copy_of_not_backs (h : ¬ m.Backs ⟨dst, src.size⟩) :
    copy m dst src = (.error (.unmapped dst src.size), m) := by
  obtain ⟨hsize, hunmapped⟩ : src.size ≠ 0 ∧ m.isMapped dst src.size = false := by
    simpa [Memory.Backs] using h
  exact copy_of_unmapped hsize hunmapped

theorem verify_of_deviates (hm : m.Apart) (h : m.Backs r)
    (hoff : ∃ x, r.Holds x ∧ m.byte? x ≠ some value) :
    ∃ x found, m.Deviates r value found x ∧
      verify m r value = .error (.mismatch (.ofNat x) value found) := by
  obtain ⟨x, hx, hne⟩ := hoff
  have hin := hx
  unfold Region.Holds at hin
  have hlen : r.len ≠ 0 := by omega
  obtain ⟨bs, hsize, hbytes, hverify⟩ := verify_of_mapped hm hlen (h hlen) value
  have hsome : ∃ j < bs.size, bs.get? j ≠ some value := by
    refine ⟨x - r.start.toNat, by omega, ?_⟩
    rwa [hbytes _ (by omega), Nat.add_sub_cancel' hin.1]
  obtain ⟨found, k, hdeviation, hfirst⟩ := Bytes.deviation?_of_off hsome
  have hk : k < r.len := by
    rw [← hsize, ← Bytes.get?_isSome, hfirst.there]
    rfl
  refine ⟨r.start.toNat + k, found, ⟨⟨by omega, by omega⟩, ?_, hfirst.off, ?_⟩, ?_⟩
  · rw [← hbytes k hk, hfirst.there]
  · intro y hy hry
    have hle := hry.1
    have hbyte := hfirst.first (y - r.start.toNat) (by omega)
    rwa [hbytes _ (by omega), Nat.add_sub_cancel' hle] at hbyte
  · rw [hverify, hdeviation]
    rfl

end Mapping

namespace Access

variable {m m' : Memory}

/-- What becomes of an access to a memory. Where no window holds the range, it is refused and
changes nothing. Otherwise it puts its bytes in place and leaves every other byte alone; a copy and
a fill answer with success, and a check with the lowest byte that is not as expected, if there is
one. -/
structure Exact (u : Access) (m : Memory) : Prop where
  refused : ¬ m.Backs u.range → u.run m = (.error (.unmapped u.range.start u.range.len), m)
  bytes : m.Backs u.range → ∀ x, (u.run m).2.byte? x = (u.put? x).or (m.byte? x)
  answer : m.Backs u.range → match u with
    | copy .. | fill .. => (u.run m).1 = .ok ()
    | verify r value =>
      ((u.run m).1 = .ok () ↔ ∀ x, r.Holds x → m.byte? x = some value) ∧
        ∀ e, (u.run m).1 = .error e ↔
          ∃ x found, m.Deviates r value found x ∧ e = .mismatch (.ofNat x) value found

theorem extents_run (u : Access) (m : Memory) : (u.run m).2.extents = m.extents := by
  cases u with
  | copy dst src => exact (Mapping.copy_agreesOff m dst src).extents
  | fill r value => exact (Mapping.fill_agreesOff m r value).extents
  | verify r value => rfl

theorem exact_copy (hm : m.Apart) (dst : Address) (src : Bytes) : (copy dst src).Exact m where
  refused := Mapping.copy_of_not_backs
  answer := Mapping.copy_of_backs
  bytes h x := by
    change (Mapping.copy m dst src).2.byte? x =
      (if dst.toNat ≤ x ∧ x < dst.toNat + src.size then src.get? (x - dst.toNat) else none).or
        (m.byte? x)
    rw [Mapping.byte?_copy hm dst src (Mapping.copy_of_backs h)]
    split
    · rename_i hx
      have hsome : (src.get? (x - dst.toNat)).isSome := Bytes.get?_isSome.mpr (by omega)
      rw [Option.or_of_isSome hsome]
    · rw [Option.none_or]

theorem exact_fill (hm : m.Apart) (r : Region) (value : UInt8) : (fill r value).Exact m where
  refused h := Mapping.fill_of_not_backs h value
  answer h := Mapping.fill_of_backs h value
  bytes h x := by
    have hbacks : m.Backs r := h
    change (Mapping.fill m r value).2.byte? x = (if r.Holds x then some value else none).or (m.byte? x)
    rw [Mapping.byte?_fill hm hbacks]
    split
    · rw [Option.some_or]
    · rw [Option.none_or]

theorem exact_verify (hm : m.Apart) (r : Region) (value : UInt8) : (verify r value).Exact m where
  refused h := congrArg (·, m) (Mapping.verify_of_not_backs h value)
  bytes _ _ := rfl
  answer h := by
    have hbacks : m.Backs r := h
    change (Mapping.verify m r value = .ok () ↔ _) ∧ ∀ e, Mapping.verify m r value = .error e ↔ _
    by_cases hall : ∀ x, r.Holds x → m.byte? x = some value
    · rw [Mapping.verify_of_uniform hm hbacks hall]
      refine ⟨iff_of_true rfl hall, fun e => iff_of_false nofun ?_⟩
      rintro ⟨x, found, hx, -⟩
      exact hx.off (Option.some.inj (hx.there.symm.trans (hall x hx.holds)))
    · have hoff : ∃ x, r.Holds x ∧ m.byte? x ≠ some value := by simpa using hall
      obtain ⟨x, found, hx, hverify⟩ := Mapping.verify_of_deviates hm hbacks hoff
      rw [hverify]
      refine ⟨iff_of_false nofun hall, fun e => ⟨?_, ?_⟩⟩
      · rintro ⟨⟩
        exact ⟨x, found, hx, rfl⟩
      · rintro ⟨x', found', hx', rfl⟩
        obtain ⟨rfl, rfl⟩ := hx.unique hx'
        rfl

/-- Whatever is done with a memory whose windows are apart is done exactly. -/
theorem exact_of_apart (hm : m.Apart) (u : Access) : u.Exact m :=
  match u with
  | copy dst src => exact_copy hm dst src
  | fill r value => exact_fill hm r value
  | verify r value => exact_verify hm r value

end Access

/-! ## One after the other -/

namespace Memory

variable {m m' : Memory}

def after (m : Memory) (made : List Access) : Memory := made.foldl (fun m u => (u.run m).2) m

/-- The byte at `x` that was put there last, by an access that had its range. -/
def lastPut? (m : Memory) (made : List Access) (x : Nat) : Option UInt8 :=
  made.reverse.findSome? fun u => if m.Backs u.range then u.put? x else none

theorem after_concat (m : Memory) (made : List Access) (u : Access) :
    m.after (made ++ [u]) = (u.run (m.after made)).2 := by
  rw [after, List.foldl_append]
  rfl

theorem extents_after (m : Memory) (made : List Access) : (m.after made).extents = m.extents := by
  induction made using List.reverseRecOn with
  | nil => rfl
  | append_singleton made u ih => rw [after_concat, Access.extents_run, ih]

theorem byte?_run (hm : m.Apart) (u : Access) (x : Nat) :
    (u.run m).2.byte? x = (if m.Backs u.range then u.put? x else none).or (m.byte? x) := by
  have hexact := Access.exact_of_apart hm u
  split
  · rename_i h
    exact hexact.bytes h x
  · rename_i h
    rw [hexact.refused h, Option.none_or]

theorem byte?_after (hm : m.Apart) (made : List Access) (x : Nat) :
    (m.after made).byte? x = (m.lastPut? made x).or (m.byte? x) := by
  induction made using List.reverseRecOn with
  | nil => rfl
  | append_singleton made u ih =>
    have hextents := m.extents_after made
    have hlast : m.lastPut? (made ++ [u]) x =
        (if m.Backs u.range then u.put? x else none).or (m.lastPut? made x) := by
      rw [lastPut?, List.reverse_append, List.reverse_singleton, List.singleton_append,
        List.findSome?_cons]
      cases (if m.Backs u.range then u.put? x else none) <;> rfl
    rw [after_concat, byte?_run (hm.of_extents hextents), ih, hlast, Option.or_assoc]
    simp only [backs_of_extents hextents]

theorem backs_iff {r : Region} : m.Backs r ↔
    r.len = 0 ∨ ∃ w ∈ m.windows, w.base.toNat ≤ r.start.toNat ∧ r.start.toNat + r.len ≤ w.limit := by
  simp only [Backs, isMapped, List.any_eq_true, Option.isSome_iff_exists, Window.offset?_eq_some,
    exists_and_left, exists_eq, and_true]
  exact Decidable.imp_iff_not_or.trans (or_congr_left not_not)

/-- After any accesses: each byte is as the last one left it that had its range and put a byte
there, and it reads so; the ranges to be had are those that were to be had at first; what is done
next is done exactly; a check is refused where a fill is, and finds nothing after one. -/
theorem accesses_exact (hm : m.Apart) (earlier : List Access) :
    let m' := m.after earlier
    (∀ x, m'.byte? x = (m.lastPut? earlier x).or (m.byte? x)) ∧
      (∀ a n, (m'.read? a n).isSome = m.isMapped a n ∧
        ∀ bs, m'.read? a n = some bs → ∀ i < n, bs.get? i = m'.byte? (a.toNat + i)) ∧
      (∀ r, m'.Backs r ↔ r.len = 0 ∨
        ∃ w ∈ m.windows, w.base.toNat ≤ r.start.toNat ∧ r.start.toNat + r.len ≤ w.limit) ∧
      (∀ u : Access, u.Exact m') ∧
      ∀ r value, (Mapping.verify m' r value = .error (.unmapped r.start r.len) ↔
          (Mapping.fill m' r value).1 = .error (.unmapped r.start r.len)) ∧
        ((Mapping.fill m' r value).1 = .ok () →
          Mapping.verify (Mapping.fill m' r value).2 r value = .ok ()) := by
  intro m'
  have hextents : m'.extents = m.extents := m.extents_after earlier
  have hapart : m'.Apart := hm.of_extents hextents
  refine ⟨byte?_after hm earlier, fun a n => ⟨?_, fun bs hread i hi => get?_of_read? hapart hread hi⟩,
    fun r => ?_, Access.exact_of_apart hapart, fun r value => ?_⟩
  · rw [← isMapped_iff, isMapped_of_extents hextents]
  · rw [backs_of_extents hextents, backs_iff]
  · by_cases hbacks : m'.Backs r
    · have hcause : Mapping.verify m' r value ≠ .error (.unmapped r.start r.len) := by
        intro h
        obtain ⟨_, _, -, hmismatch⟩ := (((Access.exact_verify hapart r value).answer hbacks).2 _).mp h
        cases hmismatch
      rw [Mapping.fill_of_backs hbacks]
      exact ⟨iff_of_false hcause nofun, fun _ => Mapping.verify_fill hapart hbacks value⟩
    · rw [Mapping.verify_of_not_backs hbacks, Mapping.fill_of_not_backs hbacks]
      exact ⟨Iff.rfl, nofun⟩

end Memory

namespace Sample

def adjacent : Memory := ⟨[⟨.ofNat 0x1000, .filled 4 0⟩, ⟨.ofNat 0x1004, .filled 4 0⟩]⟩

theorem apart_adjacent : adjacent.Apart := by
  refine List.pairwise_pair.mpr fun x hx hx' => ?_
  have hlimit : x < 0x1004 := hx.2
  have hbase : 0x1004 ≤ x := hx'.1
  omega

def accesses : List Access :=
  [.fill (.ofNat 0x1000 4) 7, .copy (.ofNat 0x1002) (.ofList [1, 2]),
    .copy (.ofNat 0x1003) (.ofList [3, 4])]

end Sample

namespace Memory

open Sample

/-- The last copy is refused, so the one before it counts, and a check stumbles over its first byte.
-/
theorem accesses_exact_sample :
    let m := adjacent.after accesses
    m.byte? 0x1001 = some 7 ∧ m.byte? 0x1003 = some 2 ∧ m.byte? 0x1004 = some 0 ∧
      ((Access.copy (.ofNat 0x1003) (.ofList [3, 4])).run m).1 = .error (.unmapped (.ofNat 0x1003) 2) ∧
      Mapping.verify m (.ofNat 0x1000 4) 7 = .error (.mismatch (.ofNat 0x1002) 7 1) := by
  obtain ⟨hbyte, -, -, hexact, -⟩ := accesses_exact apart_adjacent accesses
  have hrefused := (hexact (.copy (.ofNat 0x1003) (.ofList [3, 4]))).refused (by decide)
  have hanswer := (hexact (.verify (.ofNat 0x1000 4) 7)).answer (by decide)
  refine ⟨(hbyte _).trans (by decide), (hbyte _).trans (by decide), (hbyte _).trans (by decide),
    congrArg Prod.fst hrefused, (hanswer.2 _).mpr ⟨0x1002, 1, ⟨by decide, ?_, by decide, ?_⟩, rfl⟩⟩
  · exact (hbyte _).trans (by decide)
  · intro y hy hry
    have hbase : 0x1000 ≤ y := hry.1
    obtain rfl | rfl : y = 0x1000 ∨ y = 0x1001 := by omega
    · exact (hbyte _).trans (by decide)
    · exact (hbyte _).trans (by decide)

end Memory

end BootLoader
