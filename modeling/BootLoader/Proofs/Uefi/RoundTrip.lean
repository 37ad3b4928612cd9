import BootLoader.Proofs.Memory.View
import BootLoader.Uefi.System
import Mathlib.Algebra.Group.Nat.Defs
import Mathlib.Data.List.Pairwise

/-! Blocks that are handed out and given back. The pool gives enough for an aligned block with a
header before it. A header lies in the pool's block that it is a note of, before the part that is
written to; as long as the pool's blocks are apart it says to the end where that block is, and that
is what is given back. -/

namespace BootLoader.Uefi

namespace Heap

variable {h h' : Heap} {a n x : Nat} {data : List UInt8}

theorem put_of_off (hx : ¬ (a ≤ x ∧ x < a + data.length)) : h.put a data x = h x := by
  unfold put
  split
  · rw [List.getElem?_eq_none (by omega), Option.getD_none]
  · rfl

theorem take_congr (hsame : ∀ i < n, h' (a + i) = h (a + i)) : h'.take a n = h.take a n :=
  List.map_congr_left fun i hi => hsame i (List.mem_range.mp hi)

theorem take_put (hn : data.length = n) : (h.put a data).take a n = data := by
  refine List.ext_getElem (by simp [take, hn]) fun i hi hi' => ?_
  simp [take, put, List.getElem?_eq_getElem hi']

end Heap

/-! ## Where a block is -/

namespace Allocator

variable {size align total raw : Nat}

theorem le_roundUp {n a : Nat} (ha : 0 < a) : n ≤ roundUp n a := by
  have hlt : n + (a - 1) < roundUp n a + a := Nat.lt_div_mul_add ha
  omega

theorem roundUp_le (n a : Nat) : roundUp n a ≤ n + (a - 1) := Nat.div_mul_le_self _ _

theorem headerSize_le_alignment (align : Nat) : headerSize ≤ alignment align := Nat.le_max_right _ _

theorem two_pow_dvd_alignment (k : Nat) : 2 ^ k ∣ alignment (2 ^ k) := by
  -- the size of a header is a power of two as well, so the lesser of the two divides the greater
  change 2 ^ k ∣ max (2 ^ k) (2 ^ 3)
  rcases Nat.le_total k 3 with hk | hk
  · rw [Nat.max_eq_right (Nat.pow_le_pow_right (by decide) hk)]
    exact Nat.pow_dvd_pow 2 hk
  · refine Nat.dvd_of_mod_eq_zero ?_
    rw [Nat.max_eq_left (Nat.pow_le_pow_right (by decide) hk), Nat.mod_self]

theorem total?_eq_some : total? size align = some total ↔
    total = max size 1 + alignment align + headerSize ∧ total < Address.space := by
  simp only [total?, Option.ite_none_right_eq_some, Option.some.injEq]
  omega

/-- The block starts after a header, and what is left holds what was asked for. -/
theorem blockStart_fits (raw : Nat) (htotal : total? size align = some total) :
    raw + headerSize ≤ blockStart raw align ∧ blockStart raw align + max size 1 ≤ raw + total := by
  obtain ⟨rfl, -⟩ := total?_eq_some.mp htotal
  have hheader : 0 < headerSize := by decide
  have hpos : 0 < alignment align := Nat.lt_of_lt_of_le hheader (headerSize_le_alignment align)
  have hle := roundUp_le (raw + headerSize) (alignment align)
  refine ⟨le_roundUp hpos, ?_⟩
  unfold blockStart
  omega

/-- Where the pool's block is in the address space, moving up does not lead out of it. -/
theorem blockStart?_of_fits (htotal : total? size align = some total)
    (hspace : raw + total ≤ Address.space) : blockStart? raw align = some (blockStart raw align) := by
  obtain ⟨rfl, -⟩ := total?_eq_some.mp htotal
  have hheader : 0 < headerSize := by decide
  exact if_pos (by omega)

end Allocator

open Allocator

structure Grant where
  start : Address
  /-- what was asked for -/
  size : Nat
  /-- what the pool gave for it -/
  block : Region
deriving DecidableEq

namespace Grant

/-- One of the bytes that note where the pool's block is. -/
def InHeader (g : Grant) (x : Nat) : Prop := g.start.toNat ≤ x + headerSize ∧ x < g.start.toNat

/-- The block and the header before it lie in what the pool gave. -/
structure Placed (g : Grant) : Prop where
  header : g.block.start.toNat + headerSize ≤ g.start.toNat
  fits : g.start.toNat + max g.size 1 ≤ g.block.start.toNat + g.block.len

/-- No byte is in what the pool gave for both. -/
def Apart (g g' : Grant) : Prop := ∀ x, g.block.Holds x → ¬ g'.block.Holds x

instance : Std.Symm Apart := ⟨fun _ _ h x hx hx' => h x hx' hx⟩

variable {g : Grant} {x : Nat}

theorem Placed.holds (h : g.Placed) (hheader : g.start.toNat ≤ x + headerSize)
    (hsize : x < g.start.toNat + max g.size 1) : g.block.Holds x := by
  have hstart := h.header
  have hfits := h.fits
  exact ⟨by omega, by omega⟩

theorem Placed.holds_header (h : g.Placed) (hx : g.InHeader x) : g.block.Holds x :=
  h.holds hx.1 (Nat.lt_add_right _ hx.2)

end Grant

/-! ## One request -/

namespace Allocator

variable {σ : Type} [Pool σ] {a a' : Allocator σ} {g : Grant} {size align total : Nat} {block : Region}
  {raw : Address} {services : σ}

/-- The note before the block says where the pool's block is. -/
def Noted (a : Allocator σ) (g : Grant) : Prop :=
  a.heap.take (g.start.toNat - headerSize) headerSize = Bytes.ofNatLE headerSize g.block.start.toNat

/-- What a request does that gets a block: the pool is asked once, a header is written before the
block, and no other byte changes. -/
structure Hands (a : Allocator σ) (align : Nat) (g : Grant) (a' : Allocator σ) : Prop where
  answer : a.alloc g.size align = (.ok g.start, a')
  services : a'.services = (Pool.allocate g.block.len a.services).2
  retired : a'.retired = a.retired
  aligned : alignment align ∣ g.start.toNat
  placed : g.Placed
  noted : a'.Noted g
  off : ∀ x, ¬ g.InHeader x → a'.heap x = a.heap x

theorem hands_of_pool (hlive : a.retired = false) (htotal : total? size align = some total)
    (hpool : Pool.allocate total a.services = (.ok raw, services))
    (hspace : raw.toNat + total ≤ Address.space) :
    ∃ start a', a.Hands align ⟨start, size, ⟨raw, total⟩⟩ a' := by
  obtain ⟨hheader, hfits⟩ := blockStart_fits raw.toNat htotal
  obtain ⟨start, hofNat, hstart⟩ : ∃ start, Address.ofNat (blockStart raw.toNat align) = start ∧
      start.toNat = blockStart raw.toNat align := ⟨_, rfl, Address.toNat_ofNat (by omega)⟩
  have halloc : a.alloc size align = (.ok start, { a with
      services
      heap := a.heap.put (start.toNat - headerSize) (Bytes.ofNatLE headerSize raw.toNat) }) := by
    simp only [alloc, hlive, htotal, hpool, blockStart?_of_fits htotal hspace, hofNat, hstart]
    rfl
  rw [← hstart] at hheader hfits
  refine ⟨start, _, halloc, ?_, rfl, ?_, ⟨hheader, hfits⟩, ?_, fun x hx => Heap.put_of_off ?_⟩
  · rw [hpool]
  · exact hstart ▸ Nat.dvd_mul_left _ _
  · exact Heap.take_put (Bytes.length_ofNatLE _ _)
  · rw [Bytes.length_ofNatLE, Nat.sub_add_cancel (Nat.le_of_add_left_le hheader)]
    exact fun hin => hx ⟨Nat.sub_le_iff_le_add.mp hin.1, hin.2⟩

/-- The pool's block that a request gets, if the pool is asked and gives one. -/
def answer? (a : Allocator σ) (size align : Nat) : Option Region :=
  if a.retired then none
  else (total? size align).bind fun total =>
    match (Pool.allocate total a.services).1 with
    | .ok raw => some ⟨raw, total⟩
    | .error _ => none

theorem answer?_eq_some : a.answer? size align = some block ↔ a.retired = false ∧
    total? size align = some block.len ∧ (Pool.allocate block.len a.services).1 = .ok block.start := by
  unfold answer?
  constructor
  · intro h
    split at h
    · cases h
    · rename_i hlive
      obtain ⟨total, htotal, hblock⟩ := Option.bind_eq_some_iff.mp h
      split at hblock
      · rename_i raw hpool
        obtain rfl := Option.some.inj hblock
        exact ⟨Bool.eq_false_iff.mpr hlive, htotal, hpool⟩
      · cases hblock
  · rintro ⟨hlive, htotal, hpool⟩
    simp [hlive, htotal, hpool]

theorem hands_of_answer (h : a.answer? size align = some block)
    (hspace : block.start.toNat + block.len ≤ Address.space) :
    ∃ start a', a.Hands align ⟨start, size, block⟩ a' := by
  obtain ⟨hlive, htotal, hpool⟩ := answer?_eq_some.mp h
  exact hands_of_pool hlive htotal (Prod.ext hpool rfl) hspace

/-- Without a block of the pool there is none to hand out. -/
theorem alloc_of_none (h : a.answer? size align = none) :
    ∃ services, a.alloc size align = (.ok .zero, { a with services }) := by
  unfold answer? at h
  unfold alloc
  split
  · exact ⟨a.services, rfl⟩
  · rename_i hlive
    rw [if_neg hlive] at h
    split
    · exact ⟨a.services, rfl⟩
    · rename_i total htotal
      rw [htotal, Option.bind_some] at h
      split
      · exact ⟨_, rfl⟩
      · rename_i hpool
        rw [hpool] at h
        cases h

omit [Pool σ] in
/-- The note is read as it was written. -/
theorem origin_of_noted (h : a.Noted g) : a.origin g.start = g.block.start := by
  have hlt : g.block.start.toNat < 1 <<< (8 * headerSize) := g.block.start.toNat_lt
  refine (Address.eq_ofNat_iff ?_).mpr ?_ |>.symm
  · exact Bytes.leNat_lt _
  · rw [h, Bytes.leNat_ofNatLE, Nat.mod_eq_of_lt hlt]

theorem dealloc_of_noted (hlive : a.retired = false) (hplaced : g.Placed) (hnoted : a.Noted g)
    (hnull : g.block.start ≠ .zero) :
    a.dealloc g.start = .ok { a with services := Pool.free g.block.start a.services } := by
  have hheader := hplaced.header
  have hstart : g.start.isNull = false := by
    rw [Bool.eq_false_iff, Ne, Address.isNull_iff, ← Address.toNat_inj]
    change g.start.toNat ≠ 0
    unfold headerSize at hheader
    omega
  have hraw : g.block.start.isNull = false := by
    rwa [Bool.eq_false_iff, Ne, Address.isNull_iff]
  have hroom : ¬ g.start.toNat < headerSize := by omega
  simp [dealloc, hstart, hlive, hroom, origin_of_noted hnoted, hraw]

omit [Pool σ] in
theorem Noted.of_same (h : a.Noted g) (hplaced : g.Placed)
    (hsame : ∀ x, g.InHeader x → a'.heap x = a.heap x) : a'.Noted g := by
  have hheader := hplaced.header
  refine (Heap.take_congr fun i hi => hsame _ ⟨?_, ?_⟩).trans h
  · omega
  · omega

end Allocator

/-! ## One use after the other -/

inductive Use where
  | alloc (size align : Nat)
  | write (addr : Nat) (data : List UInt8)
  | dealloc (start : Address)

/-- An allocator, with the blocks that were handed out and not given back. -/
structure Ledger (σ : Type) where
  allocator : Allocator σ
  grants : List Grant

namespace Ledger

variable {σ : Type} [Pool σ] {a : Allocator σ} {l : Ledger σ} {g g' : Grant} {u : Use} {block : Region}
  {size align addr : Nat} {data : List UInt8} {start : Address}

def next (l : Ledger σ) : Use → Ledger σ
  | .alloc size align =>
    match l.allocator.alloc size align, l.allocator.answer? size align with
    | (.ok start, a), some block => ⟨a, ⟨start, size, block⟩ :: l.grants⟩
    | (_, a), _ => ⟨a, l.grants⟩
  | .write addr data => { l with allocator.heap := l.allocator.heap.put addr data }
  | .dealloc start =>
    match l.allocator.dealloc start with
    | .ok a => ⟨a, l.grants.filter fun g => g.start ≠ start⟩
    | .error _ => l

/-- The pool may give this block: it is somewhere, and apart from all that were not given back. -/
structure Vacant (l : Ledger σ) (block : Region) : Prop where
  nonnull : block.start ≠ .zero
  bounded : block.start.toNat + block.len ≤ Address.space
  apart : ∀ g ∈ l.grants, ∀ x, block.Holds x → ¬ g.block.Holds x

/-- In the blocks of the pool, each holder writes to what it asked for; elsewhere anybody may write.
-/
def Writable (l : Ledger σ) (addr n : Nat) : Prop :=
  (∃ g ∈ l.grants, g.start.toNat ≤ addr ∧ addr + n ≤ g.start.toNat + g.size) ∨
    ∀ g ∈ l.grants, ∀ x, addr ≤ x ∧ x < addr + n → ¬ g.block.Holds x

/-- What the pool and the holders of its blocks keep to. -/
def Admits (l : Ledger σ) : Use → Prop
  | .alloc size align => ∀ block, l.allocator.answer? size align = some block → l.Vacant block
  | .write addr data => l.Writable addr data.length
  | .dealloc start => ∃ g ∈ l.grants, g.start = start

/-- What there is after any uses of an allocator, one after the other. -/
inductive Reached (a : Allocator σ) : Ledger σ → Prop
  | opened : Reached a ⟨a, []⟩
  | next {l : Ledger σ} {u : Use} (hl : Reached a l) (hu : l.Admits u) : Reached a (l.next u)

/-- The blocks are apart, and each header is as it was written. -/
structure Sound (l : Ledger σ) : Prop where
  live : l.allocator.retired = false
  nonnull : ∀ g ∈ l.grants, g.block.start ≠ .zero
  placed : ∀ g ∈ l.grants, g.Placed
  noted : ∀ g ∈ l.grants, l.allocator.Noted g
  apart : l.grants.Pairwise Grant.Apart

omit [Pool σ] in
/-- A byte is in one block at most. -/
theorem Sound.eq_of_holds (h : l.Sound) (hg : g ∈ l.grants) (hg' : g' ∈ l.grants) {x : Nat}
    (hx : g.block.Holds x) (hx' : g'.block.Holds x) : g = g' := by
  by_contra hne
  exact h.apart.forall hg hg' hne x hx hx'

theorem Sound.dealloc (h : l.Sound) (hg : g ∈ l.grants) : l.allocator.dealloc g.start =
    .ok { l.allocator with services := Pool.free g.block.start l.allocator.services } :=
  Allocator.dealloc_of_noted h.live (h.placed g hg) (h.noted g hg) (h.nonnull g hg)

theorem Sound.next_alloc (h : l.Sound) (hu : l.Admits (.alloc size align)) :
    (l.next (.alloc size align)).Sound := by
  cases hanswer : l.allocator.answer? size align with
  | none =>
    obtain ⟨services, halloc⟩ := Allocator.alloc_of_none hanswer
    have hnext : l.next (.alloc size align) = ⟨{ l.allocator with services }, l.grants⟩ := by
      simp only [next, halloc, hanswer]
    rw [hnext]
    exact ⟨h.live, h.nonnull, h.placed, h.noted, h.apart⟩
  | some block =>
    have hvacant := hu block hanswer
    obtain ⟨start, a, hands⟩ := Allocator.hands_of_answer hanswer hvacant.bounded
    have hnext : l.next (.alloc size align) = ⟨a, ⟨start, size, block⟩ :: l.grants⟩ := by
      simp only [next, hands.answer, hanswer]
    rw [hnext]
    refine ⟨hands.retired.trans h.live, ?_, ?_, ?_, ?_⟩
    · exact List.forall_mem_cons.mpr ⟨hvacant.nonnull, h.nonnull⟩
    · exact List.forall_mem_cons.mpr ⟨hands.placed, h.placed⟩
    · refine List.forall_mem_cons.mpr ⟨hands.noted, fun g hg => ?_⟩
      -- the new header is in the new block, where no other header is
      refine (h.noted g hg).of_same (h.placed g hg) fun x hx => hands.off x fun hx' => ?_
      exact hvacant.apart g hg x (hands.placed.holds_header hx') ((h.placed g hg).holds_header hx)
    · exact List.pairwise_cons.mpr ⟨hvacant.apart, h.apart⟩

omit [Pool σ] in
/-- No header is where anybody may write. -/
theorem Sound.off_header (h : l.Sound) {n x : Nat} (hw : l.Writable addr n) (hg : g ∈ l.grants)
    (hx : g.InHeader x) : ¬ (addr ≤ x ∧ x < addr + n) := by
  intro hin
  have hholds := (h.placed g hg).holds_header hx
  rcases hw with ⟨g', hg', hstart, hsize⟩ | hoff
  · have hholds' : g'.block.Holds x := (h.placed g' hg').holds (by omega) (by omega)
    obtain rfl := h.eq_of_holds hg hg' hholds hholds'
    have hlt := hx.2
    omega
  · exact hoff g hg x hin hholds

theorem Sound.next_write (h : l.Sound) (hu : l.Admits (.write addr data)) :
    (l.next (.write addr data)).Sound where
  live := h.live
  nonnull := h.nonnull
  placed := h.placed
  noted g hg := (h.noted g hg).of_same (h.placed g hg) fun _ hx =>
    Heap.put_of_off (h.off_header hu hg hx)
  apart := h.apart

theorem Sound.next_dealloc (h : l.Sound) (hu : l.Admits (.dealloc start)) :
    (l.next (.dealloc start)).Sound := by
  obtain ⟨g, hg, rfl⟩ := hu
  have hkept : ∀ g' ∈ l.grants.filter fun g' => g'.start ≠ g.start, g' ∈ l.grants := fun _ hg' =>
    (List.mem_filter.mp hg').1
  simp only [next, h.dealloc hg]
  exact ⟨h.live, fun g' hg' => h.nonnull g' (hkept g' hg'), fun g' hg' => h.placed g' (hkept g' hg'),
    fun g' hg' => h.noted g' (hkept g' hg'), h.apart.filter _⟩

theorem Sound.next (h : l.Sound) (hu : l.Admits u) : (l.next u).Sound :=
  match u with
  | .alloc .. => h.next_alloc hu
  | .write .. => h.next_write hu
  | .dealloc _ => h.next_dealloc hu

theorem Reached.sound (hlive : a.retired = false) (h : Reached a l) : l.Sound := by
  induction h with
  | opened =>
    exact ⟨hlive, List.forall_mem_nil _, List.forall_mem_nil _, List.forall_mem_nil _, .nil⟩
  | next _ hu ih => exact ih.next hu

/-- A block is its holder's until it is given back. -/
theorem mem_grants_next (hg : g ∈ l.grants) (hu : u ≠ .dealloc g.start) : g ∈ (l.next u).grants := by
  cases u with
  | alloc size align =>
    simp only [Ledger.next]
    split
    · exact List.mem_cons_of_mem _ hg
    · exact hg
  | write addr data => exact hg
  | dealloc start =>
    have hstart : g.start ≠ start := fun heq => hu (congrArg Use.dealloc heq.symm)
    simp only [Ledger.next]
    split
    · exact List.mem_filter.mpr ⟨hg, by simpa using hstart⟩
    · exact hg

/-- At any time: a request that the pool has a block for gets an aligned one within it, with a
header before it; one for more than there are addresses gets none, and the pool is not asked; and
for each block that was not given back the header is as it was written, so that the pool gets back
what it gave. -/
theorem pool_round_trip (hlive : a.retired = false) (h : Reached a l) :
    (∀ size k total raw services, total = max size 1 + max (2 ^ k) 8 + 8 → total < Address.space →
      Pool.allocate total l.allocator.services = (.ok raw, services) →
      raw.toNat + total ≤ Address.space →
      ∃ p a', l.allocator.alloc size (2 ^ k) = (.ok p, a') ∧ a'.services = services ∧
        l.next (.alloc size (2 ^ k)) = ⟨a', ⟨p, size, ⟨raw, total⟩⟩ :: l.grants⟩ ∧
        2 ^ k ∣ p.toNat ∧ raw.toNat + 8 ≤ p.toNat ∧ p.toNat + max size 1 ≤ raw.toNat + total ∧
        a'.heap.take (p.toNat - 8) 8 = Bytes.ofNatLE 8 raw.toNat) ∧
    (∀ size align, Address.space ≤ max size 1 + max align 8 + 8 →
      l.allocator.alloc size align = (.ok .zero, l.allocator)) ∧
    (∀ g ∈ l.grants,
      l.allocator.heap.take (g.start.toNat - 8) 8 = Bytes.ofNatLE 8 g.block.start.toNat ∧
      l.allocator.dealloc g.start =
        .ok { l.allocator with services := Pool.free g.block.start l.allocator.services } ∧
      ∀ u, u ≠ .dealloc g.start → g ∈ (l.next u).grants) ∧
    l.grants.Pairwise fun g g' => g.start ≠ g'.start := by
  have hsound := h.sound hlive
  refine ⟨fun size k total raw services hsum hlt hpool hspace => ?_, fun size align hover => ?_,
    fun g hg => ⟨hsound.noted g hg, hsound.dealloc hg, fun _ => mem_grants_next hg⟩, ?_⟩
  · have htotal : total? size (2 ^ k) = some total := total?_eq_some.mpr ⟨hsum, hlt⟩
    obtain ⟨p, a', hands⟩ := hands_of_pool hsound.live htotal hpool hspace
    have hanswer : l.allocator.answer? size (2 ^ k) = some ⟨raw, total⟩ :=
      answer?_eq_some.mpr ⟨hsound.live, htotal, congrArg Prod.fst hpool⟩
    refine ⟨p, a', hands.answer, hands.services.trans (congrArg Prod.snd hpool), ?_,
      Nat.dvd_trans (two_pow_dvd_alignment k) hands.aligned, hands.placed.header, hands.placed.fits,
      hands.noted⟩
    simp only [Ledger.next, hands.answer, hanswer]
  · have hnone : total? size align = none := if_neg (Nat.not_lt.mpr hover)
    simp [alloc, hsound.live, hnone]
  · refine hsound.apart.imp_of_mem fun hg hg' hapart heq => ?_
    have hin : ∀ g ∈ l.grants, g.block.Holds g.start.toNat := fun g hg =>
      (hsound.placed g hg).holds (Nat.le_add_right _ _) (by omega)
    exact hapart _ (hin _ hg) (heq ▸ hin _ hg')

end Ledger

namespace Sample

open Ledger

def fresh : Allocator System := ⟨.plain, .zeroed, false⟩

/-- A large block was handed out and a small one behind it. -/
def neighbours : Ledger System := ((⟨fresh, []⟩ : Ledger System).next (.alloc 10 64)).next (.alloc 3 1)

theorem reached_neighbours : Reached fresh neighbours := by
  refine .next (.next .opened ?_) ?_
  · intro block hblock
    obtain rfl : Region.ofNat 0x2000000000 82 = block := Option.some.inj hblock
    exact ⟨by decide, by decide, List.forall_mem_nil _⟩
  · intro block hblock
    obtain rfl : Region.ofNat 0x2000000052 19 = block := Option.some.inj hblock
    refine ⟨by decide, by decide, List.forall_mem_singleton.mpr fun x hx hx' => ?_⟩
    have hle : 0x2000000052 ≤ x := hx.1
    have hlt : x < 0x2000000052 := hx'.2
    omega

/-- The large block was written to, all of it, and given back. -/
def returned : Ledger System :=
  (neighbours.next (.write 0x2000000040 (.replicate 10 0xff))).next (.dealloc (.ofNat 0x2000000040))

theorem reached_returned : Reached fresh returned := by
  refine .next (.next reached_neighbours (.inl ?_)) ?_
  · exact ⟨⟨.ofNat 0x2000000040, 10, .ofNat 0x2000000000 82⟩, by decide, by decide, by decide⟩
  · exact ⟨⟨.ofNat 0x2000000040, 10, .ofNat 0x2000000000 82⟩, by decide, rfl⟩

end Sample

namespace Ledger

/-- The small block can still be given back, and a page is aligned to its size. -/
theorem pool_round_trip_sample :
    Sample.returned.allocator.dealloc (.ofNat 0x2000000060) = .ok { Sample.returned.allocator with
      services := Pool.free (.ofNat 0x2000000052) Sample.returned.allocator.services } ∧
    ∃ p a', Sample.returned.allocator.alloc 4096 (2 ^ 12) = (.ok p, a') ∧ 2 ^ 12 ∣ p.toNat ∧
      a'.heap.take (p.toNat - 8) 8 = Bytes.ofNatLE 8 0x2000000065 := by
  obtain ⟨halloc, -, hgrants, -⟩ := pool_round_trip rfl Sample.reached_returned
  obtain ⟨-, hdealloc, -⟩ :=
    hgrants ⟨.ofNat 0x2000000060, 3, .ofNat 0x2000000052 19⟩ (by decide)
  obtain ⟨p, a', hanswer, -, -, haligned, -, -, hnoted⟩ :=
    halloc 4096 12 8200 (.ofNat 0x2000000065) _ (by decide) (by decide) rfl (by decide)
  exact ⟨hdealloc, p, a', hanswer, haligned, hnoted⟩

end Ledger

end BootLoader.Uefi
