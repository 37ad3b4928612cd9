import BootLoader.Platform.Clear
import BootLoader.Proofs.Memory.Task
import BootLoader.Proofs.Platform.Alias
import Mathlib.Algebra.Group.Nat.Defs

/-! What a clear may write. It writes inside the planned regions only, and if one of these shares a
byte with a protected region it writes nothing at all, so a protected byte survives however the
clear ends. Ranges are told apart by the segment they start in: one that reaches into the next
segment is not guarded there. -/

namespace BootLoader.Platform

/-- Of the planned regions, `r` is the first that meets a protected one, and `q` is the first that
it meets. Regions are compared as `translate` gives them. -/
structure FirstConflict (translate : Region → Region) (guarded plan : List Region) (r q : Region) :
    Prop where
  planned : ∃ before after, plan = before ++ r :: after ∧
    ∀ r' ∈ before, ∀ q' ∈ guarded, ¬ (translate q').overlaps (translate r')
  hit : ∃ before after, guarded = before ++ q :: after ∧
    ∀ q' ∈ before, ¬ (translate q').overlaps (translate r)
  meets : (translate q).overlaps (translate r)

theorem conflictBy?_eq_none {translate : Region → Region} {guarded plan : List Region} :
    conflictBy? translate guarded plan = none ↔
      ∀ r ∈ plan, ∀ q ∈ guarded, ¬ (translate q).overlaps (translate r) := by
  simp only [conflictBy?, List.findSome?_eq_none_iff, Option.map_eq_none_iff, List.find?_eq_none]

theorem conflictBy?_eq_some {translate : Region → Region} {guarded plan : List Region} {r q : Region} :
    conflictBy? translate guarded plan = some (r, q) ↔ FirstConflict translate guarded plan r q := by
  simp only [conflictBy?, List.findSome?_eq_some_iff, Option.map_eq_some_iff, Option.map_eq_none_iff,
    List.find?_eq_none, List.find?_eq_some_iff_append]
  constructor
  · rintro ⟨before, r', after, hplan, ⟨q', ⟨hmeets, skipped, rest, hguarded, hskipped⟩, hpair⟩, hbefore⟩
    cases hpair
    exact ⟨⟨before, after, hplan, hbefore⟩, ⟨skipped, rest, hguarded, by simpa using hskipped⟩, hmeets⟩
  · rintro ⟨⟨before, after, hplan, hbefore⟩, ⟨skipped, rest, hguarded, hskipped⟩, hmeets⟩
    exact ⟨before, r, after, hplan,
      ⟨q, ⟨hmeets, skipped, rest, hguarded, by simpa using hskipped⟩, rfl⟩, hbefore⟩

theorem zero_agreesOff {P : Nat → Prop} {r : Region} (h : ∀ x, r.Holds x → P x) :
    Keeps (Told.On (Memory.AgreesOff P)) (zero r : Task Memory PlatformError Unit) :=
  Keeps.bind (Task.keeps_update fun m => (Mapping.fill_agreesOff m r 0).mono h)
    fun _ => Task.keeps_update fun m => .refl m

theorem zeroAll_agreesOff {P : Nat → Prop} (phase : ClearPhase) {rs : List Region}
    (h : ∀ r ∈ rs, ∀ x, r.Holds x → P x) (cleared : Nat) :
    Keeps (Told.On (Memory.AgreesOff P))
      (zeroAll phase cleared rs : Task Memory PlatformError Nat) := by
  induction rs generalizing cleared with
  | nil => exact Keeps.pure cleared
  | cons r rs ih =>
    rw [List.forall_mem_cons] at h
    exact Keeps.bind (Task.keeps_say _) fun _ =>
      Keeps.bind (zero_agreesOff h.1) fun _ => ih h.2 (cleared + r.len)

theorem clear_eq {μ : Type} [Mapping μ] (p : Platform) (phase : ClearPhase) (guarded : List Region) :
    (p.clear phase guarded : Task μ PlatformError Nat) =
      match p.conflict? guarded (p.clearPlan phase) with
      | some (r, q) => .fail (.unsafeClear r q)
      | none => zeroAll phase 0 (p.clearPlan phase) := rfl

theorem clear_agreesOff (p : Platform) (phase : ClearPhase) (guarded : List Region) :
    Keeps (Told.On (Memory.AgreesOff fun x => ∃ r ∈ p.clearPlan phase, r.Holds x))
      (p.clear phase guarded : Task Memory PlatformError Nat) := by
  rw [clear_eq]
  cases p.conflict? guarded (p.clearPlan phase) with
  | some hit => exact Task.keeps_fail _
  | none => exact zeroAll_agreesOff phase (fun r hr x hx => ⟨r, hr, hx⟩) 0

theorem clear_of_conflict {p : Platform} {phase : ClearPhase} {guarded : List Region}
    {r q : Region} (h : p.conflict? guarded (p.clearPlan phase) = some (r, q)) :
    (p.clear phase guarded : Task Memory PlatformError Nat) = .fail (.unsafeClear r q) := by
  rw [clear_eq, h]

theorem not_aliases_of_conflict?_eq_none {p : Platform} {guarded plan : List Region}
    (h : p.conflict? guarded plan = none) {r q : Region} (hr : r ∈ plan) (hq : q ∈ guarded) :
    p.aliases q r = false := by
  have hapart := conflictBy?_eq_none.mp h r hr q hq
  exact Bool.eq_false_iff.mpr hapart

theorem clear_run_agreesOff (p : Platform) (phase : ClearPhase) (guarded : List Region) (m : Memory) :
    m.AgreesOff (fun x => ∃ r ∈ p.clearPlan phase, r.Holds x) ((p.clear phase guarded).run m).2 := by
  rw [Task.run_snd]
  exact clear_agreesOff p phase guarded ⟨[], m⟩

/-- However a clear ends, the bytes of the protected regions are what they were. -/
theorem clear_keeps {p : Platform} {phase : ClearPhase} {guarded : List Region} {m : Memory}
    (hm : m.Orderly) (hplan : ∀ r ∈ p.clearPlan phase, p.Uniform r) {q : Region}
    (hq : q ∈ guarded) (huniform : p.Uniform q) {x : Nat} (hx : q.Holds x) :
    ((p.clear phase guarded).run m).2.byte? x = m.byte? x := by
  have hwrites := clear_run_agreesOff p phase guarded m
  cases hconflict : p.conflict? guarded (p.clearPlan phase) with
  | some hit =>
    rw [Task.run_snd, clear_of_conflict hconflict]
    rfl
  | none =>
    by_cases hmapped : (m.byte? x).isSome
    · apply hwrites.byte? x
      rintro ⟨r, hr, hrx⟩
      have hapart := not_aliases_of_conflict?_eq_none hconflict hr hq
      exact huniform.not_holds (hplan r hr) hapart (hm.lt_of_isSome hmapped) hx hrx
    · exact hwrites.eq_of_unmapped hmapped

/-! ## Through the windows -/

section Windows

variable {μ : Type} [Mapping μ] {p : Platform} {phase : ClearPhase} {guarded : List Region}

/-- A clear that succeeds found no planned range that meets a protected one. -/
theorem conflict?_of_clear_ok {m : μ} {n : Nat}
    (h : ((p.clear phase guarded).run m).1.result = .ok n) :
    p.conflict? guarded (p.clearPlan phase) = none := by
  cases hconflict : p.conflict? guarded (p.clearPlan phase) with
  | none => rfl
  | some hit =>
    have hfail : (p.clear phase guarded : Task μ PlatformError Nat) =
        .fail (.unsafeClear hit.1 hit.2) := by
      rw [clear_eq, hconflict]
    rw [hfail] at h
    cases h

/-- A range that ends in the segment where it starts is seen through one window. -/
theorem uniform_of_segment (hbits : p.windowBits = DirectMapWindow.segmentBits) {r : Region}
    (h : r.start.toNat % 2 ^ 60 + r.len ≤ 2 ^ 60) : p.Uniform r := by
  have hsegment : ∀ w : UInt64,
      (w &&& DirectMapWindow.segmentBits).toNat = w.toNat - w.toNat % 2 ^ 60 := by
    intro w
    have hsplit := toNat_eq_add_of_mask w DirectMapWindow.segmentBits
    have hlow : (w &&& ~~~DirectMapWindow.segmentBits).toNat = w.toNat % 2 ^ 60 := by
      rw [UInt64.toNat_and]
      exact Nat.and_two_pow_sub_one_eq_mod w.toNat 60
    omega
  intro a ha
  rw [hbits, ← UInt64.toNat_inj, hsegment, hsegment]
  unfold Region.Holds at ha
  change r.start.word.toNat ≤ a.word.toNat ∧ a.word.toNat < r.start.word.toNat + r.len at ha
  change r.start.word.toNat % 2 ^ 60 + r.len ≤ 2 ^ 60 at h
  omega

theorem physical_lt (hbits : p.windowBits = DirectMapWindow.segmentBits) (a : Address) :
    (p.physical a).toNat < Address.space - 1 := by
  change (a.word &&& ~~~p.windowBits).toNat < Address.space - 1
  rw [hbits, UInt64.toNat_and]
  exact Nat.lt_of_le_of_lt Nat.and_le_right (by decide)

/-- Where no range reaches into another window, a clear that succeeds zeroes no physical byte of a
protected range, through whichever windows the ranges are given. -/
theorem clear_spares_physical {m : μ} {n : Nat} (hbits : p.windowBits = DirectMapWindow.segmentBits)
    (hplan : ∀ r ∈ p.clearPlan phase, p.Uniform r) (hguarded : ∀ q ∈ guarded, p.Uniform q)
    (h : ((p.clear phase guarded).run m).1.result = .ok n) {r q : Region} (hr : r ∈ p.clearPlan phase)
    (hq : q ∈ guarded) {a b : Address} (ha : r.Holds a.toNat) (hb : q.Holds b.toNat) :
    p.physical a ≠ p.physical b := by
  intro hsame
  have hra := (hplan r hr).contains_physical ha (physical_lt hbits a)
  have hqb := (hguarded q hq).contains_physical hb (physical_lt hbits b)
  have hmeet : p.aliases q r = true := aliases_of_contains hqb (hsame ▸ hra)
  have hapart := not_aliases_of_conflict?_eq_none (conflict?_of_clear_ok h) hr hq
  rw [hapart] at hmeet
  exact Bool.false_ne_true hmeet

end Windows

end BootLoader.Platform

namespace BootLoader.Sample

def windowed : Platform where
  id := 1
  arch := .loongArch64
  wiring := .scripted
  preparation := [.ofNat 0x9000000000000000 0x10]
  cleanup := []
  windowBits := DirectMapWindow.segmentBits

def windowedMemory : Memory := ⟨[⟨.ofNat 0x9000000000000000, .filled 0x10 0xFF⟩]⟩

end BootLoader.Sample

namespace BootLoader.Platform

open Sample

/-- The bytes are cleared, and no protected byte behind them, seen through the other window. -/
theorem clear_spares_physical_sample :
    ((windowed.clear .preparation [.ofNat 0x8000000000000010 0x20]).run
        windowedMemory).1.result.toOption =
        some 0x10 ∧
      windowed.physical (.ofNat 0x9000000000000008) ≠ windowed.physical (.ofNat 0x8000000000000018) := by
  have hplan : ∀ r ∈ windowed.clearPlan .preparation, windowed.Uniform r :=
    List.forall_mem_singleton.mpr (uniform_of_segment rfl (by decide))
  have hguarded : ∀ q ∈ [Region.ofNat 0x8000000000000010 0x20], windowed.Uniform q :=
    List.forall_mem_singleton.mpr (uniform_of_segment rfl (by decide))
  have hrun : ((windowed.clear .preparation [.ofNat 0x8000000000000010 0x20]).run
      windowedMemory).1.result = .ok 0x10 := by rfl
  refine ⟨by rw [hrun]; rfl, ?_⟩
  exact clear_spares_physical rfl hplan hguarded hrun List.mem_cons_self List.mem_cons_self
    (by decide) (by decide)

/-- A protected range that begins in one window and ends in the next is held against the plan as if
it went on where it began. So the clear goes through, and a protected byte is zeroed. -/
theorem clear_through_boundary :
    let done := (windowed.clear .preparation [.ofNat 0x8FFFFFFFFFFFFFF0 0x20]).run windowedMemory
    done.1.result.toOption = some 0x10 ∧ done.2.byte? 0x9000000000000008 = some 0 ∧
      ∃ a b : Address, (Region.ofNat 0x9000000000000000 0x10).Holds a.toNat ∧
        (Region.ofNat 0x8FFFFFFFFFFFFFF0 0x20).Holds b.toNat ∧
        windowed.physical a = windowed.physical b :=
  ⟨rfl, by decide +kernel, .ofNat 0x9000000000000008, .ofNat 0x9000000000000008, by decide,
    by decide, rfl⟩

end BootLoader.Platform
