import BootLoader.Proofs.Acpi.Walk
import BootLoader.Proofs.Handoff.Context
import BootLoader.Proofs.Pe.Entry

/-! What a state has when it succeeds: the platform, the pointer for the payload, the number of the
processor, the map, and the hypervisor's entry. -/

namespace BootLoader

variable {φ μ : Type}

/-- A plain payload is entered at its first byte, an image at its entry point, counted from where it
was put. -/
def Payload.EntersAt (p : Payload) (a : Address) : Prop :=
  match p.format with
  | .raw => a = p.load
  | .pe => ∃ rva, Pe.HasEntryPoint p.bytes rva ∧ a.toNat = p.load.toNat + rva

/-- The pointer is the address of the first device tree; without one, that of the root pointer;
without either, zero. -/
inductive PointsTo (entries : List Acpi.ConfigEntry) : Address → Prop
  | deviceTree {e : Acpi.ConfigEntry} (h : Acpi.IsFirst .deviceTree entries e) :
    PointsTo entries e.address
  | root {a : Address} (hnone : ∀ e ∈ entries, e.kind ≠ .deviceTree) (h : Acpi.Publishes entries a) :
    PointsTo entries a
  | nothing (h : ∀ e ∈ entries, e.kind = .other) : PointsTo entries .zero

namespace Host

variable [Console φ]

/-- The machine is bound to the platform from then on, be it under another description. -/
theorem publish_eq_ok {p : Platform} {w f : World φ} (h : publish p w = .ok () f) :
    ∃ q, f.machine.bound = some q ∧ q.id = p.id ∧ w.machine.bound.getD p = q := by
  cases hbound : w.machine.bound with
  | none =>
    obtain ⟨line, hpublish⟩ := publish_of_unbound p hbound
    cases hpublish.symm.trans h
    exact ⟨p, World.bound_say _ line, rfl, rfl⟩
  | some q =>
    rw [publish_of_bound p hbound] at h
    split at h
    · rename_i hid
      cases h
      exact ⟨q, hbound, hid, rfl⟩
    · cases h

end Host

namespace Boot

variable [Firmware φ] {s t : Session φ μ}

theorem detect_eq_ok {R : World φ → World φ → Prop} [IsPreorder (World φ) R] (hR : Quiet R)
    (h : detect s = .ok () t) : ∃ p f, s.config.platform = some p ∧
      Host.publish p s.world = .ok () f ∧ R f t.world ∧ t.context = found s.context p f.firmware := by
  cases hp : s.config.platform with
  | none =>
    rw [detect, get_bind, hp] at h
    cases h
  | some p =>
    cases hpublish : Host.publish p s.world with
    | error e f =>
      cases (detect_of_unpublished hp hpublish).symm.trans h
    | ok _ f =>
      obtain ⟨line, hdetect⟩ := detect_of_publish hp (inWorld_of_ok hpublish)
      obtain ⟨w, c, hw, -, hsettled⟩ := settle_cases hR.say
        (s := { s with world := f.say line, context := found s.context p f.firmware }) rfl
      rw [← hdetect, h] at hsettled
      rcases hsettled with ⟨-, -, hok⟩ | ⟨e, herror⟩
      · cases hok
        exact ⟨p, f, rfl, hpublish, trans_of R (hR.say f line) hw, rfl⟩
      · cases herror

theorem pointsTo_contextPointer (entries : List Acpi.ConfigEntry) :
    PointsTo entries (contextPointer entries) := by
  unfold contextPointer
  cases htree : Acpi.ConfigEntry.deviceTree? entries with
  | some a =>
    obtain ⟨e, he, rfl⟩ := Acpi.ConfigEntry.deviceTree?_eq_some.mp htree
    exact .deviceTree he
  | none =>
    have hnone : ∀ e ∈ entries, e.kind ≠ .deviceTree :=
      Acpi.ConfigEntry.firstOf_eq_none.mp (Option.map_eq_none_iff.mp htree)
    cases hroot : Acpi.ConfigEntry.root? entries with
    | some e => exact .root hnone (Acpi.publishes_iff.mpr ⟨e, hroot, rfl⟩)
    | none =>
      rw [Acpi.ConfigEntry.root?, Option.or_eq_none_iff, Acpi.ConfigEntry.firstOf_eq_none,
        Acpi.ConfigEntry.firstOf_eq_none] at hroot
      refine .nothing fun e he => ?_
      have htree := hnone e he
      have hnew := hroot.1 e he
      have hold := hroot.2 e he
      cases hkind : e.kind <;> simp_all

/-- There is one pointer at most. -/
theorem eq_contextPointer {entries : List Acpi.ConfigEntry} {a : Address} (h : PointsTo entries a) :
    a = contextPointer entries := by
  have hnone {kind : Acpi.EntryKind} (hkind : ∀ e ∈ entries, e.kind ≠ kind) :
      Acpi.ConfigEntry.firstOf kind entries = none := Acpi.ConfigEntry.firstOf_eq_none.mpr hkind
  unfold contextPointer Acpi.ConfigEntry.deviceTree?
  cases h with
  | deviceTree h =>
    rw [Acpi.ConfigEntry.firstOf_eq_some.mpr h]
    rfl
  | root htree h =>
    obtain ⟨e, hroot, rfl⟩ := Acpi.publishes_iff.mp h
    rw [hnone htree, hroot]
    rfl
  | nothing h =>
    have hother {kind : Acpi.EntryKind} (hkind : kind ≠ .other) : ∀ e ∈ entries, e.kind ≠ kind :=
      fun e he heq => hkind (heq.symm.trans (h e he))
    rw [Acpi.ConfigEntry.root?, hnone (hother (by decide)), hnone (hother (by decide)),
      hnone (hother (by decide))]
    rfl

theorem acquireMemoryMap_eq_ok (h : acquireMemoryMap s = .ok () t) :
    ∃ p u cpu v, s.context.platform = some p ∧ Host.beforeExit p s.world = .ok () u ∧
      Host.bootCpu p u = .ok cpu v ∧ t.context.bootCpu = some cpu ∧ t.mapBuffer.isSome := by
  unfold acquireMemoryMap at h
  cases hp : s.context.platform with
  | none =>
    rw [bind_of_error (platform_of_none hp)] at h
    cases h
  | some p =>
    rw [bind_of_ok (platform_of_some hp)] at h
    obtain ⟨_, s₁, hfirst, h⟩ := bind_eq_ok.mp h
    obtain ⟨u, hbefore, rfl⟩ := inWorld_eq_ok hfirst
    obtain ⟨cpu, s₂, hsecond, h⟩ := bind_eq_ok.mp h
    obtain ⟨v, hcpu, rfl⟩ := inWorld_eq_ok hsecond
    obtain ⟨_, _, hsay, h⟩ := bind_eq_ok.mp h
    cases hsay
    rw [onContext, modify_bind] at h
    obtain ⟨buffer, s₃, hreserve, h⟩ := bind_eq_ok.mp h
    obtain ⟨w, -, rfl⟩ := inWorld_eq_ok hreserve
    cases h
    exact ⟨p, u, cpu, v, rfl, hbefore, hcpu, rfl, rfl⟩

theorem terminateFirmwareServices_eq_ok (h : terminateFirmwareServices s = .ok () t) :
    t.context.memoryMap.isSome ∧ t.mapBuffer = none := by
  unfold terminateFirmwareServices at h
  obtain ⟨buffer, s₁, htake, h⟩ := bind_eq_ok.mp h
  have hnone : s₁.mapBuffer = none := by
    rw [takeMapBuffer_apply] at htake
    cases hb : s.mapBuffer <;> rw [hb] at htake <;> cases htake
    rfl
  obtain ⟨_, _, hsay, h⟩ := bind_eq_ok.mp h
  cases hsay
  obtain ⟨_, s₂, hquiesce, h⟩ := bind_eq_ok.mp h
  obtain ⟨_, -, rfl⟩ := inWorld_eq_ok hquiesce
  obtain ⟨map, s₃, hmap, h⟩ := bind_eq_ok.mp h
  obtain ⟨_, -, rfl⟩ := inWorld_eq_ok hmap
  cases h
  exact ⟨rfl, hnone⟩

variable [Mapping μ]

theorem diagnosticDump_eq_ok (h : diagnosticDump s = .ok () t) :
    t.context.contextPointer = contextPointer (Firmware.entries s.world.firmware) := by
  have hgathered := gathered_diagnosticDump s
  rw [h] at hgathered
  exact congrArg (·.1.contextPointer) hgathered

theorem place_eq_ok {p : Payload} {entry : Address} (h : place p s = .ok entry t) :
    p.EntersAt entry := by
  unfold place at h
  obtain ⟨_, u, -, h⟩ := bind_eq_ok.mp h
  unfold Payload.EntersAt
  cases hformat : p.format with
  | raw =>
    rw [hformat] at h
    obtain ⟨_, v, -, h⟩ := bind_eq_ok.mp h
    cases h
    rfl
  | pe =>
    rw [hformat] at h
    obtain ⟨l, v, hload, h⟩ := bind_eq_ok.mp h
    cases h
    obtain ⟨hdone, -⟩ := inMemory_eq_ok hload
    obtain ⟨_, hrun, -⟩ := Task.run_eq_ok.mp hdone
    exact Pe.entry_of_load hrun

end Boot

end BootLoader
