import BootLoader.Build.Layout
import BootLoader.Firmware.Scripted
import BootLoader.Proofs.Handoff.Placement
import BootLoader.Proofs.Handoff.Setting
import BootLoader.Proofs.Handoff.Step
import BootLoader.Proofs.Platform.Alias

/-! The check before anything is embedded and the check of the first state. The one compares the
ends as the addresses stand, the other what is left of the ranges without their window bits, cut off
at the last address; on the layouts there are, with images of any length that memory could hold,
they agree. -/

namespace BootLoader

/-! ## Ranges -/

/-- Within one window, and clear of the last address, ranges alias each other where they meet as
they stand. -/
theorem Platform.aliases_iff_of_window {p : Platform} {r q : Region}
    (hwindow : r.start.word &&& p.windowBits = q.start.word &&& p.windowBits)
    (hr : r.start.toNat + r.len < Address.space) (hq : q.start.toNat + q.len < Address.space) :
    p.aliases r q = true ↔ r.len ≠ 0 ∧ q.len ≠ 0 ∧ r.start.toNat < q.start.toNat + q.len ∧
      q.start.toNat < r.start.toNat + r.len := by
  have hsplit := toNat_eq_add_of_mask r.start.word p.windowBits
  have hsplit' := toNat_eq_add_of_mask q.start.word p.windowBits
  rw [hwindow] at hsplit
  have hstart : ∀ c : Region,
      (p.toPhysical c).start.toNat = (c.start.word &&& ~~~p.windowBits).toNat := fun _ => rfl
  have hlen : ∀ c : Region, (p.toPhysical c).len = c.len := fun _ => rfl
  have hword : ∀ c : Region, c.start.toNat = c.start.word.toNat := fun _ => rfl
  simp only [Platform.aliases, Region.overlaps, Region.isEmpty, Region.limit, Bool.and_eq_true,
    Bool.not_eq_true', beq_eq_false_iff_ne, decide_eq_true_eq, hstart, hlen]
  rw [hword] at hr hq ⊢
  rw [hword]
  omega

/-- A range of no bytes aliases nothing. -/
theorem Platform.aliases_empty (p : Platform) (r : Region) (a : Address) :
    p.aliases r ⟨a, 0⟩ = false := by
  simp [Platform.aliases, Region.overlaps, Region.isEmpty, Platform.toPhysical]

namespace Arch

abbrev hypervisorRegion (arch : Arch) (h : Nat) : Region := ⟨arch.layout.hypervisorLoad, h⟩

abbrev kernelRegion (arch : Arch) (k : Nat) : Region := ⟨arch.layout.kernelLoad, k⟩

end Arch

namespace Build

variable {arch : Arch} {h k : Nat}

/-- Payloads of any length up to a quarter of all addresses end before the last one. -/
theorem layout_fits (arch : Arch) {n : Nat} (hn : n < 2 ^ 62) :
    arch.layout.hypervisorLoad.toNat + n < Address.space ∧
      arch.layout.kernelLoad.toNat + n < Address.space := by
  have hlow : arch.layout.hypervisorLoad.toNat + 2 ^ 62 ≤ Address.space ∧
      arch.layout.kernelLoad.toNat + 2 ^ 62 ≤ Address.space := by
    cases arch <;> decide
  omega

/-- A platform wants both payloads in one window. -/
theorem layout_window (arch : Arch) :
    arch.layout.hypervisorLoad.word &&& (Platform.builtIn arch).windowBits =
      arch.layout.kernelLoad.word &&& (Platform.builtIn arch).windowBits := by
  cases arch <;> decide

theorem checkAligned_layout (arch : Arch) :
    checkAligned arch .hypervisor arch.layout.hypervisorLoad.toNat = .ok () ∧
      checkAligned arch .kernel arch.layout.kernelLoad.toNat = .ok () := by
  cases arch <;> exact ⟨rfl, rfl⟩

theorem checkLayout_eq_ok (hh : h < 2 ^ 62) (hk : k < 2 ^ 62) :
    checkLayout arch h k = .ok () ↔ ¬ (k ≠ 0 ∧
      arch.layout.kernelLoad.toNat < arch.layout.hypervisorLoad.toNat + h ∧
      arch.layout.hypervisorLoad.toNat < arch.layout.kernelLoad.toNat + k) := by
  have hfits := (layout_fits arch hh).1
  have hfits' := (layout_fits arch hk).2
  obtain ⟨hpage, hpage'⟩ := checkAligned_layout arch
  unfold checkLayout
  dsimp only
  rw [hpage, except_ok_bind, hpage', except_ok_bind, if_neg (by omega)]
  change (if _ then _ else _ : Except LayoutError Unit) = _ ↔ _
  split
  · rename_i hmeet
    exact iff_of_false nofun fun hclear => hclear hmeet
  · rename_i hclear
    exact iff_of_true rfl hclear

/-- What is refused before the build is what aliases at boot. -/
theorem aliases_layout_iff (hh : 1 ≤ h) (hh' : h < 2 ^ 62) (hk : k < 2 ^ 62) :
    (Platform.builtIn arch).aliases (arch.hypervisorRegion h) (arch.kernelRegion k) = true ↔
      checkLayout arch h k ≠ .ok () := by
  have hmeet := Platform.aliases_iff_of_window (r := arch.hypervisorRegion h)
    (q := arch.kernelRegion k) (layout_window arch) (layout_fits arch hh').1
    (layout_fits arch hk).2
  refine hmeet.trans (.trans ?_ (not_congr (checkLayout_eq_ok hh' hk)).symm)
  dsimp only
  omega

end Build

/-! ## The first state -/

structure Payload.IsPlain (p : Payload) (a : Address) (n : Nat) : Prop where
  format : p.format = .raw
  load : p.load = a
  size : p.bytes.size = n

theorem Payload.IsPlain.footprint {p : Payload} {a : Address} {n : Nat} (h : p.IsPlain a n) :
    p.footprint = ⟨a, n⟩ := by
  rw [footprint_of_raw h.format, destination, h.load, h.size]

/-- Plain images of these lengths, headed for where the platform wants them; without a length, there
is no kernel. -/
structure BootConfig.IsPlain (c : BootConfig) (arch : Arch) (h k : Nat) : Prop where
  platform : c.platform = some (.builtIn arch)
  hypervisor : c.hypervisor.IsPlain arch.layout.hypervisorLoad h
  without : k = 0 → c.kernel = none
  kernel : k ≠ 0 → ∃ kernel, c.kernel = some kernel ∧ kernel.IsPlain arch.layout.kernelLoad k

namespace BootConfig.IsPlain

variable {c : BootConfig} {arch : Arch} {h k : Nat} {loader : Region}

theorem hypervisor_isEmpty (hc : c.IsPlain arch h k) (hh : 1 ≤ h) : c.hypervisor.isEmpty = false := by
  have hsize := hc.hypervisor.size
  simp only [Payload.isEmpty, Bytes.isEmpty, beq_eq_false_iff_ne]
  omega

theorem kernelIsEmpty (hc : c.IsPlain arch h k) : c.kernelIsEmpty = false := by
  unfold BootConfig.kernelIsEmpty
  by_cases hk : k = 0
  · rw [hc.without hk]
    rfl
  · obtain ⟨kernel, hkernel, hplain⟩ := hc.kernel hk
    have hsize := hplain.size
    simp only [hkernel, Option.any_some, Payload.isEmpty, Bytes.isEmpty, beq_eq_false_iff_ne]
    omega

theorem footprint_of_mem (hc : c.IsPlain arch h k) {payload : Payload} (hp : payload ∈ c.payloads) :
    payload.footprint = arch.hypervisorRegion h ∨
      payload.footprint = arch.kernelRegion k := by
  rcases List.mem_cons.mp hp with rfl | hp
  · exact .inl hc.hypervisor.footprint
  · rw [Option.mem_toList] at hp
    by_cases hk : k = 0
    · rw [hc.without hk] at hp
      cases hp
    · obtain ⟨kernel, hkernel, hplain⟩ := hc.kernel hk
      cases hkernel.symm.trans hp
      exact .inr hplain.footprint

/-- Clear of the loader, plain images are in order unless they alias each other. -/
theorem checkPlacement_eq (hc : c.IsPlain arch h k) {p : Platform}
    (hhypervisor : p.aliases (arch.hypervisorRegion h) loader = false)
    (hkernel : p.aliases (arch.kernelRegion k) loader = false) :
    c.checkPlacement p loader =
      if p.aliases (arch.hypervisorRegion h) (arch.kernelRegion k) = true then
        .error (.payloadsOverlap (arch.hypervisorRegion h) (arch.kernelRegion k))
      else .ok () := by
  have hclear : loaderConflict? p loader c.payloads = none := by
    refine List.find?_eq_none.mpr fun payload hp => ?_
    rw [Bool.not_eq_true]
    rcases hc.footprint_of_mem hp with hfootprint | hfootprint <;> rw [hfootprint]
    · exact hhypervisor
    · exact hkernel
  unfold checkPlacement
  rw [hclear]
  by_cases hk : k = 0
  · rw [hc.without hk, hk, p.aliases_empty]
    rfl
  · obtain ⟨kernel, hkernel, hplain⟩ := hc.kernel hk
    rw [hkernel, hc.hypervisor.footprint]
    dsimp only
    rw [hplain.footprint]
    rfl

end BootConfig.IsPlain

namespace Boot

variable {φ μ : Type} [Firmware φ] {s : Session φ μ}

/-- With something to boot, the first state comes down to where it goes. -/
theorem detect_of_payloads {p : Platform} {w : World φ} (hp : s.config.platform = some p)
    (hpublish : Host.publish p s.world = .ok () w) (hhypervisor : s.config.hypervisor.isEmpty = false)
    (hkernel : s.config.kernelIsEmpty = false) : ∃ t, detect s =
      match s.config.checkPlacement p (Firmware.loaderImage w.firmware) with
      | .ok _ => .ok () t
      | .error e => .error (.config e) t := by
  obtain ⟨line, hdetect⟩ := detect_of_publish hp (inWorld_of_ok hpublish)
  let t : Session φ μ :=
    { s with world := w.say line, context := found s.context p w.firmware }
  have hadmit : admitPayloads t = .ok () t := by
    simp only [admitPayloads, get_bind, t, hhypervisor, hkernel]
    rfl
  refine ⟨t, hdetect.trans ((bind_of_ok hadmit).trans ?_)⟩
  unfold checkPlacement
  rw [bind_of_ok (platform_of_some rfl), get_bind]
  change (match s.config.checkPlacement p (Firmware.loaderImage w.firmware) with
    | .ok _ => return
    | .error e => throw (.config e) : Boot φ μ Unit) t = _
  cases s.config.checkPlacement p (Firmware.loaderImage w.firmware) <;> rfl

def loaderAt (s : Session φ μ) (p : Platform) : Region :=
  Firmware.loaderImage (final (Host.publish p s.world)).firmware

/-- Clear of the loader, plain images are refused where they alias each other. -/
theorem detect_of_plain {arch : Arch} {h k : Nat} (hplain : s.config.IsPlain arch h k) (hh : 1 ≤ h)
    (hfree : ∀ q, s.world.machine.bound = some q → q.id = (Platform.builtIn arch).id)
    (hhypervisor : (Platform.builtIn arch).aliases (arch.hypervisorRegion h)
      (loaderAt s (.builtIn arch)) = false)
    (hkernel : (Platform.builtIn arch).aliases (arch.kernelRegion k)
      (loaderAt s (.builtIn arch)) = false) :
    ∃ t, detect s = if (Platform.builtIn arch).aliases (arch.hypervisorRegion h)
        (arch.kernelRegion k) = true then
      .error (.config (.payloadsOverlap (arch.hypervisorRegion h) (arch.kernelRegion k))) t
      else .ok () t := by
  obtain ⟨w, hpublish⟩ := Host.publish_of_free hfree
  obtain ⟨t, hdetect⟩ := detect_of_payloads hplain.platform hpublish (hplain.hypervisor_isEmpty hh)
    hplain.kernelIsEmpty
  have hloader : loaderAt s (.builtIn arch) = Firmware.loaderImage w.firmware := by
    rw [loaderAt, hpublish]
    rfl
  rw [hloader] at hhypervisor hkernel
  rw [hplain.checkPlacement_eq hhypervisor hkernel] at hdetect
  refine ⟨t, hdetect.trans ?_⟩
  cases (Platform.builtIn arch).aliases (arch.hypervisorRegion h) (arch.kernelRegion k) <;> rfl

end Boot

open Build in
/-- Of plain images at the places of a built-in platform, clear of the loader, exactly those pass
the first state that passed the check before the build, whatever their lengths; the others are
refused because they overlap. Only a machine that is bound to another platform already stops before
it comes to that. -/
theorem checkLayout_agrees {φ μ : Type} [Firmware φ] [Mapping μ] {s : Session φ μ} {arch : Arch}
    {h k : Nat} (hs : s.state = .detect) (hplain : s.config.IsPlain arch h k) (hh : 1 ≤ h)
    (hh' : h < 2 ^ 62) (hk : k < 2 ^ 62)
    (hhypervisor : (Platform.builtIn arch).aliases (arch.hypervisorRegion h)
      (Boot.loaderAt s.announced (.builtIn arch)) = false)
    (hkernel : (Platform.builtIn arch).aliases (arch.kernelRegion k)
      (Boot.loaderAt s.announced (.builtIn arch)) = false) :
    ((∀ q, s.world.machine.bound = some q → q.id = (Platform.builtIn arch).id) →
      (checkLayout arch h k = .ok () ↔
        ∀ a b t, Boot.step s ≠ .error (.config (.payloadsOverlap a b)) t) ∧
      (checkLayout arch h k = .ok () → ∃ t, Boot.step s = .ok .earlyArchInit t) ∧
      (checkLayout arch h k ≠ .ok () → ∃ t, Boot.step s = .error (.config (.payloadsOverlap
        (arch.hypervisorRegion h) (arch.kernelRegion k))) t)) ∧
    ∀ q, s.world.machine.bound = some q → q.id ≠ (Platform.builtIn arch).id →
      ∃ t, Boot.step s = .error (.platform (.alreadyBound q.arch arch)) t := by
  have hbound : s.announced.world.machine.bound = s.world.machine.bound := World.bound_say _ _
  have haction : Boot.action s.state s.announced = Boot.detect s.announced := by
    rw [hs]
    rfl
  have hrefused : _ ↔ checkLayout arch h k ≠ .ok () := aliases_layout_iff hh hh' hk
  rw [← hbound]
  constructor
  · intro hfree
    obtain ⟨t, hdetect⟩ :=
      Boot.detect_of_plain (s := s.announced) hplain hh hfree hhypervisor hkernel
    have hpasses : checkLayout arch h k = .ok () → ∃ t, Boot.step s = .ok .earlyArchInit t := by
      intro hok
      rw [if_neg (mt hrefused.mp (not_not_intro hok))] at hdetect
      rw [Boot.step_of_ok (haction.trans hdetect), hs]
      exact ⟨_, rfl⟩
    have hfails : checkLayout arch h k ≠ .ok () → ∃ t, Boot.step s =
        .error (.config (.payloadsOverlap (arch.hypervisorRegion h) (arch.kernelRegion k))) t := by
      intro hnot
      rw [if_pos (hrefused.mpr hnot)] at hdetect
      exact ⟨t, Boot.step_of_error (haction.trans hdetect)⟩
    refine ⟨⟨fun hok a b u herror => ?_, fun hclear => ?_⟩, hpasses, hfails⟩
    · obtain ⟨u', hstep⟩ := hpasses hok
      cases hstep.symm.trans herror
    · by_contra hnot
      obtain ⟨u, hstep⟩ := hfails hnot
      exact hclear _ _ u hstep
  · intro q hq hother
    have hdetect := Boot.detect_of_unpublished (s := s.announced) hplain.platform
      (Host.publish_of_taken hq hother)
    exact ⟨_, Boot.step_of_error (haction.trans hdetect)⟩

namespace Sample

/-- A hypervisor of one byte and a kernel of so many, which is below it. -/
def plainConfig (k : Nat) : BootConfig :=
  (BootConfig.ofHypervisor (some (.builtIn .loongArch64)) (.filled 1 0)).withKernel (.filled k 0) .raw

def plainSession (k : Nat) : Session ScriptedFirmware Memory :=
  let firmware := { ScriptedFirmware.plain with loaderImage := .ofNat 0x2000000000 1 }
  .start ⟨.fresh ⟨0, false⟩, firmware⟩ .empty (plainConfig k)

theorem isPlain_plainConfig {k : Nat} (hk : k ≠ 0) : (plainConfig k).IsPlain .loongArch64 1 k where
  platform := rfl
  hypervisor := ⟨rfl, rfl, Bytes.size_filled 1 0⟩
  without h := absurd h hk
  kernel _ := ⟨_, rfl, rfl, rfl, Bytes.size_filled k 0⟩

end Sample

/-- A kernel that ends where the hypervisor starts is all right, and one that is a byte longer is
not. -/
theorem checkLayout_agrees_sample :
    (∃ t, Boot.step (Sample.plainSession 0xFFE10000) = .ok .earlyArchInit t) ∧
      ∃ t, Boot.step (Sample.plainSession 0xFFE10001) = .error (.config (.payloadsOverlap
        (.ofNat 0x9000000100010000 1) (.ofNat 0x9000000000200000 0xFFE10001))) t := by
  have hloader : ∀ k, Boot.loaderAt (Sample.plainSession k).announced (.builtIn .loongArch64) =
      .ofNat 0x2000000000 1 := fun _ => rfl
  obtain ⟨-, hpasses, -⟩ := (checkLayout_agrees (s := Sample.plainSession 0xFFE10000) rfl
    (Sample.isPlain_plainConfig (by decide)) (by decide) (by decide) (by decide)
    (by rw [hloader]; decide) (by rw [hloader]; decide)).1 nofun
  obtain ⟨-, -, hfails⟩ := (checkLayout_agrees (s := Sample.plainSession 0xFFE10001) rfl
    (Sample.isPlain_plainConfig (by decide)) (by decide) (by decide) (by decide)
    (by rw [hloader]; decide) (by rw [hloader]; decide)).1 nofun
  exact ⟨hpasses (by decide), hfails (by decide)⟩

end BootLoader
