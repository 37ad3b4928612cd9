import BootLoader.Proofs.Memory.Fill
import BootLoader.Proofs.Platform.Clear
import Mathlib.Algebra.Ring.Nat

/-! How a clear ends, whatever its plan: refused as a whole, carried out as a whole, or stopped at
the first region that no window holds, with the regions before it zeroed. What was zeroed always
reads back as zero, so the read-back never stops it. -/

namespace BootLoader.Platform

variable {translate : Region → Region} {phase : ClearPhase} {guarded plan rs : List Region}
variable {m m' : Memory} {r : Region} {t : Told Memory}

/-- Every byte of the regions is zero, and every other byte is what it was. -/
structure Zeroed (rs : List Region) (m m' : Memory) : Prop where
  extents : m'.extents = m.extents
  byte? : ∀ x, m'.byte? x = if ∃ r ∈ rs, r.Holds x then some 0 else m.byte? x

/-- How many bytes the regions have together; those that several of them have count as often. -/
def total (rs : List Region) : Nat := (rs.map (·.len)).sum

theorem Zeroed.nil (m : Memory) : Zeroed [] m m := ⟨rfl, fun x => by simp⟩

theorem Zeroed.cons (hm : m.Apart) (hbacks : m.Backs r) (h : Zeroed rs (Mapping.fill m r 0).2 m') :
    Zeroed (r :: rs) m m' := by
  refine ⟨h.extents.trans (Mapping.fill_agreesOff m r 0).extents, fun x => ?_⟩
  rw [h.byte? x, Mapping.byte?_fill hm hbacks]
  by_cases hrest : ∃ r' ∈ rs, r'.Holds x
  · have hall : ∃ r' ∈ r :: rs, r'.Holds x := by simp [hrest]
    rw [if_pos hrest, if_pos hall]
  · rw [if_neg hrest]
    by_cases hr : r.Holds x
    · simp [hr]
    · have hnone : ¬ ∃ r' ∈ r :: rs, r'.Holds x := by simpa [hr] using hrest
      rw [if_neg hr, if_neg hnone]

/-! ## The regions one after the other -/

theorem zero_of_backs (hm : t.state.Apart) (h : t.state.Backs r) :
    (zero r : Task Memory PlatformError Unit) t =
      .ok () ⟨t.said, (Mapping.fill t.state r 0).2⟩ := by
  have hfill := Mapping.fill_of_backs h 0
  have hverify := Mapping.verify_fill hm h 0
  unfold zero
  rw [Task.bind_apply, Task.update_apply]
  rcases hboth : Mapping.fill t.state r 0 with ⟨result, filled⟩
  rw [hboth] at hfill hverify
  subst hfill
  simp only [Task.update_apply, hverify]

theorem zero_of_not_backs (h : ¬ t.state.Backs r) :
    (zero r : Task Memory PlatformError Unit) t =
      .error (.memory (.unmapped r.start r.len)) t := by
  unfold zero
  rw [Task.bind_apply, Task.update_apply, Mapping.fill_of_not_backs h]

theorem zeroAll_of_backs (hm : t.state.Apart) (h : t.state.Backs r) (phase : ClearPhase) (cleared : Nat)
    (rs : List Region) :
    ∃ said, (zeroAll phase cleared (r :: rs) : Task Memory PlatformError Nat) t =
      zeroAll phase (cleared + r.len) rs ⟨said, (Mapping.fill t.state r 0).2⟩ := by
  rw [zeroAll, Task.say_bind]
  exact ⟨_, Task.bind_ok (zero_of_backs hm h)⟩

theorem zeroAll_of_not_backs (h : ¬ t.state.Backs r) (phase : ClearPhase) (cleared : Nat)
    (rs : List Region) :
    ∃ said, (zeroAll phase cleared (r :: rs) : Task Memory PlatformError Nat) t =
      .error (.memory (.unmapped r.start r.len)) ⟨said, t.state⟩ := by
  rw [zeroAll, Task.say_bind]
  exact ⟨_, Task.bind_error (zero_of_not_backs h)⟩

/-- The regions before the first one without a window are zeroed; if there is no such one, all are.
-/
theorem zeroAll_outcome (phase : ClearPhase) (rs : List Region) (cleared : Nat) (t : Told Memory)
    (hm : t.state.Apart) :
    match (zeroAll phase cleared rs : Task Memory PlatformError Nat) t with
    | .ok n t' => (∀ r ∈ rs, t.state.Backs r) ∧ n = cleared + total rs ∧ Zeroed rs t.state t'.state
    | .error e t' => ∃ before r after, rs = before ++ r :: after ∧
        (∀ r' ∈ before, t.state.Backs r') ∧ ¬ t.state.Backs r ∧
        e = .memory (.unmapped r.start r.len) ∧ Zeroed before t.state t'.state := by
  induction rs generalizing cleared t with
  | nil => exact ⟨by simp, rfl, .nil t.state⟩
  | cons r rs ih =>
    by_cases hr : t.state.Backs r
    · obtain ⟨said, hcons⟩ := zeroAll_of_backs hm hr phase cleared rs
      have hextents := (Mapping.fill_agreesOff t.state r 0).extents
      have hbacks := Memory.backs_of_extents hextents
      have hrest := ih (cleared + r.len) ⟨said, (Mapping.fill t.state r 0).2⟩ (hm.of_extents hextents)
      rw [hcons]
      cases hall : (zeroAll phase (cleared + r.len) rs : Task Memory PlatformError Nat)
          ⟨said, (Mapping.fill t.state r 0).2⟩ with
      | ok n t' =>
        rw [hall] at hrest
        obtain ⟨hmapped, hn, hzeroed⟩ := hrest
        simp only [hbacks] at hmapped
        refine ⟨List.forall_mem_cons.mpr ⟨hr, hmapped⟩, ?_, hzeroed.cons hm hr⟩
        simp [hn, total, Nat.add_assoc]
      | error e t' =>
        rw [hall] at hrest
        obtain ⟨before, r', after, rfl, hbefore, hr', he, hzeroed⟩ := hrest
        simp only [hbacks] at hbefore hr'
        exact ⟨r :: before, r', after, rfl, List.forall_mem_cons.mpr ⟨hr, hbefore⟩, hr', he,
          hzeroed.cons hm hr⟩
    · obtain ⟨said, hcons⟩ := zeroAll_of_not_backs hr phase cleared rs
      rw [hcons]
      exact ⟨[], r, rs, rfl, by simp, hr, rfl, .nil t.state⟩

/-! ## The whole plan -/

theorem clearBy_of_conflict {q : Region} (h : FirstConflict translate guarded plan r q) :
    (clearBy translate phase guarded plan : Task Memory PlatformError Nat) =
      .fail (.unsafeClear r q) := by
  simp only [clearBy, conflictBy?_eq_some.mpr h]

theorem clearBy_of_apart
    (h : ∀ r ∈ plan, ∀ q ∈ guarded, ¬ (translate q).overlaps (translate r)) :
    (clearBy translate phase guarded plan : Task Memory PlatformError Nat) = zeroAll phase 0 plan := by
  simp only [clearBy, conflictBy?_eq_none.mpr h]

theorem exists_firstConflict
    (h : ∃ r ∈ plan, ∃ q ∈ guarded, (translate q).overlaps (translate r)) :
    ∃ r q, FirstConflict translate guarded plan r q := by
  cases hconflict : conflictBy? translate guarded plan with
  | some pair => exact ⟨pair.1, pair.2, conflictBy?_eq_some.mp hconflict⟩
  | none =>
    obtain ⟨r, hr, q, hq, hmeets⟩ := h
    exact absurd hmeets (conflictBy?_eq_none.mp hconflict r hr q hq)

theorem zeroAll_run (phase : ClearPhase) (plan : List Region) (hm : m.Apart) :
    let done := (zeroAll phase 0 plan : Task Memory PlatformError Nat).run m
    (∀ r ∈ plan, m.Backs r) ∧ done.1.result = .ok (total plan) ∧ Zeroed plan m done.2 ∨
    ∃ before r after, plan = before ++ r :: after ∧ (∀ r' ∈ before, m.Backs r') ∧ ¬ m.Backs r ∧
      done.1.result = .error (.memory (.unmapped r.start r.len)) ∧ Zeroed before m done.2 := by
  have houtcome := zeroAll_outcome phase plan 0 ⟨[], m⟩ hm
  unfold Task.run
  cases hrun : (zeroAll phase 0 plan : Task Memory PlatformError Nat) ⟨[], m⟩ with
  | ok n t =>
    rw [hrun] at houtcome
    obtain ⟨hbacks, rfl, hzeroed⟩ := houtcome
    exact .inl ⟨hbacks, by rw [Nat.zero_add], hzeroed⟩
  | error e t =>
    rw [hrun] at houtcome
    obtain ⟨before, r, after, hplan, hbefore, hr, rfl, hzeroed⟩ := houtcome
    exact .inr ⟨before, r, after, hplan, hbefore, hr, rfl, hzeroed⟩

/-- A plan that meets a protected region is refused for its first such region and the first that
this one meets, and nothing is written. Any other plan is carried out: as a whole if every region
has its window, else up to the first region that has none. That a byte is not zero after that is
never found. -/
theorem clearBy_effect (translate : Region → Region) (phase : ClearPhase) (guarded plan : List Region)
    (hm : m.Apart) :
    let done := (clearBy translate phase guarded plan : Task Memory PlatformError Nat).run m
    ((∃ r ∈ plan, ∃ q ∈ guarded, (translate q).overlaps (translate r)) →
      ∃ r q, FirstConflict translate guarded plan r q ∧
        done.1.result = .error (.unsafeClear r q) ∧ done.2 = m) ∧
    ((∀ r ∈ plan, ∀ q ∈ guarded, ¬ (translate q).overlaps (translate r)) →
      ((∀ r ∈ plan, m.Backs r) → done.1.result = .ok (total plan) ∧ Zeroed plan m done.2) ∧
      ((∃ r ∈ plan, ¬ m.Backs r) →
        ∃ before r after, plan = before ++ r :: after ∧ (∀ r' ∈ before, m.Backs r') ∧ ¬ m.Backs r ∧
          done.1.result = .error (.memory (.unmapped r.start r.len)) ∧ Zeroed before m done.2)) ∧
    ∀ a expected found, done.1.result ≠ .error (.memory (.mismatch a expected found)) := by
  intro done
  by_cases hconflict : ∃ r ∈ plan, ∃ q ∈ guarded, (translate q).overlaps (translate r)
  · obtain ⟨r, q, hfirst⟩ := exists_firstConflict hconflict
    have hdone : done = (⟨[], .error (.unsafeClear r q)⟩, m) := by
      simp only [done, clearBy_of_conflict hfirst]
      rfl
    refine ⟨fun _ => ⟨r, q, hfirst, by rw [hdone], by rw [hdone]⟩, fun hapart => ?_, by simp [hdone]⟩
    obtain ⟨r', hr', q', hq', hmeets⟩ := hconflict
    exact absurd hmeets (hapart r' hr' q' hq')
  · have hapart : ∀ r ∈ plan, ∀ q ∈ guarded, ¬ (translate q).overlaps (translate r) := by
      intro r hr q hq hmeets
      exact hconflict ⟨r, hr, q, hq, hmeets⟩
    have hdone : done = (zeroAll phase 0 plan : Task Memory PlatformError Nat).run m :=
      congrArg (Task.run · m) (clearBy_of_apart hapart)
    rw [hdone]
    refine ⟨fun h => absurd h hconflict, fun _ => ?_, ?_⟩ <;>
      rcases zeroAll_run phase plan hm with ⟨hall, hok, hzeroed⟩ |
        ⟨before, r, after, hplan, hbefore, hr, herror, hzeroed⟩
    · refine ⟨fun _ => ⟨hok, hzeroed⟩, fun hsome => ?_⟩
      obtain ⟨r, hr, hnot⟩ := hsome
      exact absurd (hall r hr) hnot
    · refine ⟨fun hall => absurd (hall r (by simp [hplan])) hr, fun _ => ?_⟩
      exact ⟨before, r, after, hplan, hbefore, hr, herror, hzeroed⟩
    · simp [hok]
    · simp [herror]

end BootLoader.Platform

namespace BootLoader.Sample

/-- Two regions that share bytes, and one of no bytes where no window is. -/
def mappedPlan : List Region :=
  [.ofNat 0x9000000000000000 8, .ofNat 0x9000000000000004 8, .ofNat 0x9000000000005000 0]

/-- The second region reaches beyond the window. -/
def unmappedPlan : List Region := [.ofNat 0x9000000000000000 8, .ofNat 0x900000000000000F 2]

/-- A region in the other window, onto memory that neither plan is about. -/
def beyondPlans : Region := .ofNat 0x8000000000000020 0x10

/-- A byte in the other window, which both plans are about. -/
def withinPlans : Region := .ofNat 0x8000000000000005 1

theorem apart_windowedMemory : windowedMemory.Apart := List.pairwise_singleton ..

end BootLoader.Sample

namespace BootLoader.Platform

open Sample

/-- A plan carried out, one that stops half-way, and one that is refused. -/
theorem clearBy_effect_sample :
    let done := fun guarded plan =>
      (clearBy windowed.toPhysical .cleanup guarded plan : Task Memory PlatformError Nat).run
        windowedMemory
    ((done [beyondPlans] mappedPlan).1.result = .ok 16 ∧
      Zeroed mappedPlan windowedMemory (done [beyondPlans] mappedPlan).2) ∧
    (∃ before r after, unmappedPlan = before ++ r :: after ∧
      (∀ r' ∈ before, windowedMemory.Backs r') ∧ ¬ windowedMemory.Backs r ∧
      (done [beyondPlans] unmappedPlan).1.result = .error (.memory (.unmapped r.start r.len)) ∧
      Zeroed before windowedMemory (done [beyondPlans] unmappedPlan).2) ∧
    ∃ r q, FirstConflict windowed.toPhysical [beyondPlans, withinPlans] mappedPlan r q ∧
      (done [beyondPlans, withinPlans] mappedPlan).1.result = .error (.unsafeClear r q) ∧
      (done [beyondPlans, withinPlans] mappedPlan).2 = windowedMemory := by
  have effect := fun guarded plan =>
    clearBy_effect windowed.toPhysical .cleanup guarded plan apart_windowedMemory
  have hmapped := ((effect [beyondPlans] mappedPlan).2.1 (by decide +kernel)).1 (by decide +kernel)
  have hunmapped := ((effect [beyondPlans] unmappedPlan).2.1 (by decide +kernel)).2 (by decide +kernel)
  have hrefused := (effect [beyondPlans, withinPlans] mappedPlan).1 (by decide +kernel)
  exact ⟨hmapped, hunmapped, hrefused⟩

end BootLoader.Platform
