import BootLoader.Proofs.Handoff.Placement
import BootLoader.Proofs.Handoff.Step

/-! What the first state settles, and that it stays settled. A step of another state keeps the
setting, and writes only what the setting does not guard. -/

namespace BootLoader

variable {φ : Type}

/-! ## The checks of the first state -/

theorem Platform.aliases_comm (p : Platform) (r q : Region) : p.aliases r q = p.aliases q r :=
  Region.overlaps_comm _ _

namespace BootConfig

variable {c c' d : BootConfig} {p : Platform} {loader : Region}

theorem checkPlacement_eq_ok (h : c.checkPlacement p loader = .ok ()) :
    (∀ payload ∈ c.payloads, p.aliases loader payload.footprint = false) ∧
      ∀ kernel, c.kernel = some kernel →
        p.aliases c.hypervisor.footprint kernel.footprint = false := by
  unfold checkPlacement at h
  cases hconflict : loaderConflict? p loader c.payloads with
  | some payload =>
    rw [hconflict] at h
    cases h
  | none =>
    rw [hconflict] at h
    constructor
    · intro payload hpayload
      rw [p.aliases_comm]
      exact Bool.eq_false_iff.mpr (List.find?_eq_none.mp hconflict payload hpayload)
    · intro kernel hkernel
      rw [hkernel] at h
      cases halias : p.aliases c.hypervisor.footprint kernel.footprint with
      | false => rfl
      | true =>
        dsimp only at h
        rw [if_pos halias] at h
        cases h

end BootConfig

namespace Boot.Admits

variable {c c' d : BootConfig}

theorem trans (h : Admits c c') (h' : Admits c' d) : Admits c d := by
  rcases h with rfl | ⟨hempty, rfl⟩
  · exact h'
  · rcases h' with rfl | ⟨hempty', -⟩
    · exact .inr ⟨hempty, rfl⟩
    · cases hempty'

theorem platform (h : Admits c c') : c'.platform = c.platform := by
  rcases h with rfl | ⟨-, rfl⟩ <;> rfl

theorem hypervisor (h : Admits c c') : c'.hypervisor = c.hypervisor := by
  rcases h with rfl | ⟨-, rfl⟩ <;> rfl

theorem kernel (h : Admits c c') {kernel : Payload} (hkernel : c'.kernel = some kernel) :
    c.kernel = some kernel := by
  rcases h with rfl | ⟨-, rfl⟩
  · exact hkernel
  · cases hkernel

theorem payloads (h : Admits c c') {payload : Payload} (hp : payload ∈ c'.payloads) :
    payload ∈ c.payloads := by
  rcases h with rfl | ⟨-, rfl⟩
  · exact hp
  · rw [List.mem_singleton.mp hp]
    exact List.mem_cons_self

/-- Only a payload without bytes is dropped. -/
theorem mem_of_source (h : Admits c c') {payload : Payload} (hp : payload ∈ c.payloads) {x : Nat}
    (hx : payload.source.Holds x) : payload ∈ c'.payloads := by
  rcases h with rfl | ⟨hempty, rfl⟩
  · exact hp
  · rcases List.mem_cons.mp hp with rfl | hkernel
    · exact List.mem_cons_self
    · rw [Option.mem_toList] at hkernel
      rw [BootConfig.kernelIsEmpty, hkernel] at hempty
      have hsize : payload.bytes.size = 0 := by simpa [Payload.isEmpty, Bytes.isEmpty] using hempty
      have hlt := hx.2
      rw [Payload.source, hsize] at hlt
      exact absurd hx.1 (Nat.not_le.mpr hlt)

end Boot.Admits

/-! ## What is settled -/

namespace Session

/-- From the second state on, what is booted has passed the checks of the first one. -/
structure Settled (c : BootConfig) (m₀ : Memory) (s : Session φ Memory) : Prop where
  config : Boot.Admits c s.config
  extents : s.memory.extents = m₀.extents
  platform : ∀ p, s.context.platform = some p → c.platform = some p
  checked : s.state ≠ .detect → ∃ p, s.context.platform = some p ∧
    s.config.checkPlacement p s.context.loaderImage = .ok ()

variable {c : BootConfig} {m₀ : Memory} {s : Session φ Memory}

theorem settled_start (world : World φ) (m₀ : Memory) (c : BootConfig) :
    Settled c m₀ (Session.start world m₀ c) := ⟨.inl rfl, rfl, nofun, fun h => absurd rfl h⟩

theorem Settled.orderly (h : Settled c m₀ s) (hm : m₀.Orderly) : s.memory.Orderly :=
  hm.of_extents h.extents

end Session

/-! ## One step -/

variable [Firmware φ]

namespace BootState

theorem next_ne_detect (s : BootState) : s.next ≠ .detect := by cases s <;> exact nofun

end BootState

namespace Boot

variable {σ : Setting} {G : Nat → Prop}

/-- After the first state the setting lasts, and so does what is guarded against the writes. -/
theorem spares_action {state : BootState} (hstate : state ≠ .detect)
    (hcopies : state = .copyPayloads → (∀ x, G x → σ.Protects .preparation x) ∧
      ∀ p ∈ σ.config.payloads, ∀ x, G x → p.footprint.Avoids x)
    (hfixup : state = .archPreJumpFixup → ∀ x, G x → σ.Protects .cleanup x) :
    Keeps (Spares σ G) (action state : Boot φ Memory Unit) := by
  by_cases hquiet : state.isQuiet = true
  · exact keeps_of_ground ((keeps_action lenient_blind hquiet).mono fun _ _ h => h.2)
  · cases state with
    | detect => exact absurd rfl hstate
    | copyPayloads => exact keeps_copyPayloads (hcopies rfl).1 (hcopies rfl).2
    | archPreJumpFixup => exact keeps_preJumpFixup (hfixup rfl)
    | _ => exact absurd rfl hquiet

theorem spares_nothing {state : BootState} (hstate : state ≠ .detect) :
    Keeps (Spares σ fun _ => False) (action state : Boot φ Memory Unit) :=
  spares_action hstate (fun _ => ⟨fun _ h => h.elim, fun _ _ _ h => h.elim⟩) fun _ _ h => h.elim

end Boot

namespace Session

variable {s : Session φ Memory} {G : Nat → Prop}

/-- A step that spares what is guarded stays in its state or goes on to the next. -/
theorem stepped_of_spares
    (h : Keeps (Spares s.setting G) (Boot.action s.state : Boot φ Memory Unit)) :
    s.stepped.setting = { s.setting with state := s.stepped.state } ∧
      (s.stepped.state = s.state ∨ s.stepped.state = s.state.next) ∧
      (s.memory.Orderly → s.memory.AgreesOff (fun x => ¬ G x) s.stepped.memory) := by
  rcases s.stepped_cases with ⟨t, hok, hstepped⟩ | ⟨e, herror⟩
  · obtain ⟨hsetting, hmemory⟩ := h.of_ok hok rfl
    rw [hstepped]
    refine ⟨?_, .inr rfl, hmemory⟩
    simp only [setting, Setting.mk.injEq, true_and] at hsetting ⊢
    exact ⟨hsetting.1, hsetting.2.2.1, hsetting.2.2.2⟩
  · obtain ⟨hsetting, hmemory⟩ := h.of_error herror rfl
    refine ⟨?_, .inl (congrArg Setting.state hsetting), hmemory⟩
    simp only [setting, Setting.mk.injEq, true_and] at hsetting ⊢
    exact ⟨hsetting.1, hsetting.2.2.1, hsetting.2.2.2⟩

/-- The first state changes no memory; it settles the platform and what to boot, or stays. -/
theorem stepped_of_detect {R : World φ → World φ → Prop} [IsPreorder (World φ) R] (h : Quiet R)
    (hs : s.state = .detect) :
    ∃ w, R s.world w ∧ (s.stepped = { s with world := w } ∨
      ∃ p f c, s.config.platform = some p ∧ R s.world f ∧ Boot.Admits s.config c ∧
        ((c.kernelIsEmpty = false ∧
            c.checkPlacement p (Firmware.loaderImage f.firmware) = .ok () ∧ s.stepped =
            { s with
              world := w, config := c, state := .earlyArchInit
              context := Boot.found s.context p f.firmware }) ∨
          s.stepped =
            { s with world := w, config := c, context := Boot.found s.context p f.firmware })) := by
  have hannounced : R s.world s.announced.world := h.say s.world _
  have haction : Boot.action s.state s.announced = Boot.detect s.announced := by rw [hs]; rfl
  rcases Boot.detect_cases h s.announced with
    ⟨e, w, hw, hdetect⟩ | ⟨p, f, w, c, hp, hf, hw, hc, hdetect⟩
  · exact ⟨w, trans_of R hannounced hw, .inl (stepped_of_error (haction.trans hdetect))⟩
  · refine ⟨w, trans_of R hannounced hw, .inr ⟨p, f, c, hp, trans_of R hannounced hf, hc, ?_⟩⟩
    rcases hdetect with ⟨hkernel, hchecked, hok⟩ | ⟨e, herror⟩
    · refine .inl ⟨hkernel, hchecked, ?_⟩
      rw [stepped_of_ok (haction.trans hok), hs]
      rfl
    · exact .inr (stepped_of_error (haction.trans herror))

variable {c : BootConfig} {m₀ : Memory}

theorem Settled.stepped (hm : m₀.Orderly) (h : Settled c m₀ s) : Settled c m₀ s.stepped := by
  by_cases hs : s.state = .detect
  · rcases stepped_of_detect lenient_blind.toQuiet hs with
      ⟨w, -, hstay | ⟨p, f, d, hp, -, hd, ⟨-, hchecked, hok⟩ | herror⟩⟩
    · rw [hstay]
      exact ⟨h.config, h.extents, h.platform, h.checked⟩
    · have hcp : c.platform = some p := h.config.platform ▸ hp
      rw [hok]
      exact ⟨h.config.trans hd, h.extents, fun _ hp' => hp' ▸ hcp, fun _ => ⟨p, rfl, hchecked⟩⟩
    · have hcp : c.platform = some p := h.config.platform ▸ hp
      rw [herror]
      exact ⟨h.config.trans hd, h.extents, fun _ hp' => hp' ▸ hcp, fun hne => absurd hs hne⟩
  · obtain ⟨hsetting, -, hwrites⟩ := stepped_of_spares (s := s) (Boot.spares_nothing hs)
    have hconfig : s.stepped.config = s.config := congrArg Setting.config hsetting
    have hplatform : s.stepped.context.platform = s.context.platform :=
      congrArg Setting.platform hsetting
    have hloader : s.stepped.context.loaderImage = s.context.loaderImage :=
      congrArg Setting.loaderImage hsetting
    refine ⟨hconfig ▸ h.config, (hwrites (h.orderly hm)).extents.trans h.extents, ?_, fun _ => ?_⟩
    · rw [hplatform]
      exact h.platform
    · rw [hconfig, hplatform, hloader]
      exact h.checked hs

end Session

end BootLoader
