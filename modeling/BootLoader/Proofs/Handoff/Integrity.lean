import BootLoader.Firmware.Scripted
import BootLoader.Proofs.Handoff.Settled

/-! What the checks of the first state are worth. Footprints that are found apart from the loader
and from each other stay apart, so the loader lasts through every step, and a payload from its
placement to the transfer. -/

namespace BootLoader

variable {φ : Type}

/-- The window bits are the same all over each footprint and each range that is to be zeroed. -/
structure Platform.Discerns (p : Platform) (c : BootConfig) : Prop where
  footprints : ∀ payload ∈ c.payloads, p.Uniform payload.footprint
  plan : ∀ phase, ∀ r ∈ p.clearPlan phase, p.Uniform r

namespace Session

variable {s : Session φ Memory} {c : BootConfig} {m₀ : Memory} {loader : Region}

theorem Settled.protects (h : Settled c m₀ s) (hp : ∀ p, c.platform = some p → p.Discerns c)
    {phase : ClearPhase} {q : Region}
    (hq : q ∈ s.config.protectedRegions s.context.loaderImage phase)
    (huniform : ∀ p, c.platform = some p → p.Uniform q) {x : Nat} (hx : q.Holds x) :
    s.setting.Protects phase x := fun p hsp =>
  have hcp := h.platform p hsp
  ⟨(hp p hcp).plan phase, q, hq, huniform p hcp, hx⟩

variable [Firmware φ]

/-! ## The loader -/

/-- The loader is where the firmware says, and as it was. -/
structure Intact (c : BootConfig) (m₀ : Memory) (loader : Region) (s : Session φ Memory) : Prop
    extends Settled c m₀ s where
  named : s.state = .detect → Firmware.loaderImage s.world.firmware = loader
  known : s.state ≠ .detect → s.context.loaderImage = loader
  bytes : ∀ x, loader.Holds x → s.memory.byte? x = m₀.byte? x

theorem Intact.avoids (h : Intact c m₀ loader s)
    (hp : ∀ p, c.platform = some p → p.Discerns c)
    (hloader : ∀ p, c.platform = some p → p.Uniform loader) (hs : s.state ≠ .detect)
    {payload : Payload} (hpayload : payload ∈ s.config.payloads) {x : Nat} (hx : loader.Holds x) :
    payload.footprint.Avoids x := by
  obtain ⟨p, hsp, hchecked⟩ := h.checked hs
  have hcp := h.platform p hsp
  rw [h.known hs] at hchecked
  exact ⟨p, loader, (hp p hcp).footprints payload (h.config.payloads hpayload), hloader p hcp,
    (BootConfig.checkPlacement_eq_ok hchecked).1 payload hpayload, hx⟩

theorem Intact.stepped (hsteady : Steady (Firmware.loaderImage : φ → Region)) (hm : m₀.Orderly)
    (hp : ∀ p, c.platform = some p → p.Discerns c)
    (hloader : ∀ p, c.platform = some p → p.Uniform loader) (h : Intact c m₀ loader s) :
    Intact c m₀ loader s.stepped := by
  have hsettled := h.toSettled.stepped hm
  -- the first state writes nothing and asks where the loader is; every other one has that answer
  by_cases hs : s.state = .detect
  · have hfirmware : ∀ {w : World φ}, Same (fun w => Firmware.loaderImage w.firmware) s.world w →
        Firmware.loaderImage w.firmware = loader := fun hw => hw.trans (h.named hs)
    rcases stepped_of_detect hsteady.lenient.toQuiet hs with
      ⟨w, hw, hstay | ⟨p, f, d, -, hf, -, ⟨-, -, hok⟩ | herror⟩⟩
    · rw [hstay] at hsettled ⊢
      exact ⟨hsettled, fun _ => hfirmware hw, fun hne => absurd hs hne, h.bytes⟩
    · rw [hok] at hsettled ⊢
      exact ⟨hsettled, nofun, fun _ => hfirmware hf, h.bytes⟩
    · rw [herror] at hsettled ⊢
      exact ⟨hsettled, fun _ => hfirmware hw, fun hne => absurd hs hne, h.bytes⟩
  · have hprotects : ∀ phase x, loader.Holds x → s.setting.Protects phase x := fun phase x hx =>
      h.protects hp (q := loader) (h.known hs ▸ List.mem_cons_self) hloader hx
    have hspares : Keeps (Spares s.setting loader.Holds)
        (Boot.action s.state : Boot φ Memory Unit) :=
      Boot.spares_action hs (fun _ => ⟨hprotects _, fun _ hpayload _ => h.avoids hp hloader hs hpayload⟩)
        fun _ => hprotects _
    obtain ⟨hsetting, hstate, hwrites⟩ := stepped_of_spares hspares
    have hlater : s.stepped.state ≠ .detect := by
      rcases hstate with hstate | hstate <;> rw [hstate]
      · exact hs
      · exact s.state.next_ne_detect
    refine ⟨hsettled, fun h => absurd h hlater, fun _ => ?_, fun x hx => ?_⟩
    · exact (congrArg Setting.loaderImage hsetting).trans (h.known hs)
    · exact ((hwrites (h.orderly hm)).byte? x (Classical.not_not.mpr hx)).trans (h.bytes x hx)

theorem Intact.afterSteps (hsteady : Steady (Firmware.loaderImage : φ → Region)) (hm : m₀.Orderly)
    (hp : ∀ p, c.platform = some p → p.Discerns c) (world : World φ)
    (hloader : ∀ p, c.platform = some p → p.Uniform (Firmware.loaderImage world.firmware)) (n : Nat) :
    Intact c m₀ (Firmware.loaderImage world.firmware) ((start world m₀ c).afterSteps n) :=
  afterSteps_induction (fun _ h => h.stepped hsteady hm hp hloader)
    ⟨settled_start world m₀ c, fun _ => rfl, fun h => absurd rfl h, fun _ _ => rfl⟩ n

/-- No clear changes a byte of the loader's own copy of a payload. -/
theorem Settled.clear_spares_source (hm : m₀.Orderly)
    (hp : ∀ p, c.platform = some p → p.Discerns c) (h : Settled c m₀ s) {payload : Payload}
    (hpayload : payload ∈ c.payloads)
    (hsource : ∀ p, c.platform = some p → p.Uniform payload.source) {x : Nat}
    (hx : payload.source.Holds x) (phase : ClearPhase) (w : World φ) :
    (final (Boot.clear phase { s with world := w })).memory.byte? x = s.memory.byte? x := by
  have hprotects : ∀ y, payload.source.Holds y → s.setting.Protects phase y := by
    intro y hy
    refine h.protects hp (q := payload.source) ?_ hsource hy
    have hmem := h.config.mem_of_source hpayload hy
    exact List.mem_append_left _ (List.mem_cons_of_mem _ (List.mem_map_of_mem hmem))
  obtain ⟨-, hwrites⟩ := Boot.keeps_clear (φ := φ) hprotects { s with world := w } rfl
  exact (hwrites (h.orderly hm)).byte? x (Classical.not_not.mpr hx)

end Session

namespace Sample

def platform : Platform where
  id := 7
  arch := .aarch64
  wiring := .scripted
  preparation := [.ofNat 0x1000 0x40]
  cleanup := [.ofNat 0x1030 8]
  windowBits := 0

/-- An image of two sections: four bytes for `0x10`, and two that go over the last two of them. -/
def image : Bytes := .ofList <|
  [0x4D, 0x5A] ++ .replicate 58 0 ++ [0x40, 0, 0, 0] ++ [0x50, 0x45, 0, 0] ++
  [0, 0, 2, 0] ++ .replicate 12 0 ++ [32, 0, 0, 0] ++ [0x0B, 0x02] ++ .replicate 30 0 ++
  .replicate 12 0 ++ [0x10, 0, 0, 0, 4, 0, 0, 0, 200, 0, 0, 0] ++ .replicate 16 0 ++
  .replicate 12 0 ++ [0x12, 0, 0, 0, 2, 0, 0, 0, 204, 0, 0, 0] ++ .replicate 16 0 ++
  [1, 2, 3, 4, 5, 6]

def config : BootConfig where
  platform := some platform
  hypervisor := ⟨.hypervisor, image, .ofNat 0x1000, .pe, .ofNat 0x3000⟩
  kernel := some ⟨.kernel, .ofList [7, 8], .ofNat 0x1020, .raw, .ofNat 0x3100⟩
  kernelPolicy := .require
  diagnosticDump := false

def memory : Memory :=
  ⟨[⟨.ofNat 0x1000, .filled 0x40 0xFF⟩, ⟨.ofNat 0x3000, .filled 0x200 0xAA⟩]⟩

def world : World ScriptedFirmware :=
  ⟨.fresh ⟨0, false⟩, { ScriptedFirmware.plain with loaderImage := .ofNat 0x3000 0x200 }⟩

def bootsKernel {α : Type} : EStateM.Result BootError (Session ScriptedFirmware Memory) α → Bool
  | .ok _ s => s.context.kernelEntry.isSome
  | .error .. => false

theorem orderly_memory : memory.Orderly := by
  refine ⟨List.pairwise_pair.mpr fun x hx hx' => ?_, by decide +kernel⟩
  have hlimit : x < 0x1040 := hx.2
  have hbase : 0x3000 ≤ x := hx'.1
  omega

theorem discerns_config (p : Platform) (h : config.platform = some p) : p.Discerns config := by
  cases h
  exact ⟨fun _ _ => Platform.uniform_of_windowBits rfl _,
    fun _ _ _ => Platform.uniform_of_windowBits rfl _⟩

end Sample

/-- What is written down in advance and not to be used up. -/
def ScriptedFirmware.fixed (f : ScriptedFirmware) :
    Region × List Acpi.ConfigEntry × Address × Option UInt64 :=
  (f.loaderImage, f.entries, f.systemTable, f.hart)

theorem ScriptedFirmware.steady_fixed : Steady ScriptedFirmware.fixed where
  print _ _ := rfl
  bootHart _ := rfl
  releaseHart _ := rfl
  memoryMap _ _ := rfl
  allocate size f := by
    simp only [Firmware.allocate, ScriptedFirmware.allocate]
    split
    · rfl
    · split <;> rfl
  quiesce _ := rfl
  exit key f := by
    simp only [Firmware.exit, ScriptedFirmware.exit]
    split
    · rfl
    · split <;> rfl

theorem ScriptedFirmware.steady_loaderImage :
    Steady (Firmware.loaderImage : ScriptedFirmware → Region) := steady_fixed.map Prod.fst

namespace Session

/-- However often a boot is stepped and whatever fails, no byte of the running loader changes, and
no clear that is then made changes a byte of what the loader carries. -/
theorem loader_intact_afterSteps [Firmware φ] (hsteady : Steady (Firmware.loaderImage : φ → Region))
    {world : World φ} {memory : Memory} {config : BootConfig} (hm : memory.Orderly)
    (hp : ∀ p, config.platform = some p → p.Discerns config ∧
      p.Uniform (Firmware.loaderImage world.firmware) ∧
      ∀ payload ∈ config.payloads, p.Uniform payload.source) (n : Nat) :
    let s := (start world memory config).afterSteps n
    (∀ x, (Firmware.loaderImage world.firmware).Holds x → s.memory.byte? x = memory.byte? x) ∧
      ∀ payload ∈ config.payloads, ∀ x, payload.source.Holds x →
        ∀ phase (w : World φ),
        (final (Boot.clear phase { s with world := w })).memory.byte? x = s.memory.byte? x := by
  have hdiscerns : ∀ p, config.platform = some p → p.Discerns config := fun p h => (hp p h).1
  have hintact := Intact.afterSteps hsteady hm hdiscerns world
    (fun p h => (hp p h).2.1) n
  exact ⟨hintact.bytes, fun payload hpayload x hx phase w =>
    hintact.clear_spares_source hm hdiscerns hpayload (fun p h => (hp p h).2.2 payload hpayload) hx
      phase w⟩

theorem loader_intact_afterSteps_sample :
    let s := (start Sample.world Sample.memory Sample.config).afterSteps 8
    s.memory.byte? 0x3000 = some 0xAA ∧ ∀ phase (w : World ScriptedFirmware),
      (final (Boot.clear phase { s with world := w })).memory.byte? 0x3000 = some 0xAA := by
  have hp : ∀ p, Sample.config.platform = some p → p.Discerns Sample.config ∧
      p.Uniform (Firmware.loaderImage Sample.world.firmware) ∧
      ∀ payload ∈ Sample.config.payloads, p.Uniform payload.source := fun p h =>
    ⟨Sample.discerns_config p h, by cases h; exact Platform.uniform_of_windowBits rfl _,
      fun _ _ => by cases h; exact Platform.uniform_of_windowBits rfl _⟩
  obtain ⟨hloader, hclear⟩ :=
    loader_intact_afterSteps ScriptedFirmware.steady_loaderImage Sample.orderly_memory hp 8
  have hbyte := (hloader 0x3000 (by decide)).trans
    (show Sample.memory.byte? 0x3000 = some 0xAA by decide +kernel)
  exact ⟨hbyte, fun phase w =>
    (hclear Sample.config.hypervisor List.mem_cons_self 0x3000 (by decide +kernel) phase w).trans hbyte⟩

end Session

/-! ## The payloads -/

namespace BootState

/-- The states after the payloads are placed. -/
def isLate : BootState → Bool
  | .archPreJumpFixup | .transfer => true
  | _ => false

theorem isLate_next {state : BootState} (h : state.isQuiet = true) :
    state.next.isLate = state.isLate := by
  cases state <;> first | rfl | cases h

end BootState

namespace Session

variable {s : Session φ Memory} {c : BootConfig} {m₀ : Memory}

/-- Once the payloads are placed they stay; before that, no kernel has an entry. -/
structure Kept (c : BootConfig) (m₀ : Memory) (s : Session φ Memory) : Prop
    extends Settled c m₀ s where
  early : s.state.isLate = false → s.context.kernelEntry = none
  late : s.state.isLate = true → Boot.Placed s

/-- What kept the payloads in one place keeps them in another that differs in nothing they need. -/
theorem Kept.of_same {t : Session φ Memory} (h : Kept c m₀ s) (hsettled : Settled c m₀ t)
    (hlate : t.state.isLate = s.state.isLate) (hconfig : t.config = s.config)
    (hentry : t.context.kernelEntry = s.context.kernelEntry) (hmemory : t.memory = s.memory) :
    Kept c m₀ t := by
  refine ⟨hsettled, fun hearly => ?_, fun hplaced => ?_⟩
  · rw [hentry]
    exact h.early (hlate ▸ hearly)
  · obtain ⟨hhypervisor, hkernel⟩ := h.late (hlate ▸ hplaced)
    exact ⟨by rwa [hconfig, hmemory], by rwa [hconfig, hmemory, hentry]⟩

variable [Firmware φ]

theorem Kept.stepped_of_quiet (hm : m₀.Orderly) (h : Kept c m₀ s) (hs : s.state.isQuiet = true) :
    Kept c m₀ s.stepped := by
  have hsettled := h.toSettled.stepped hm
  have hkeeps := Boot.keeps_action (φ := φ) (μ := Memory) lenient_blind hs
  rcases s.stepped_cases with ⟨t, hok, hstepped⟩ | ⟨e, herror⟩
  · have hground : t.ground = s.ground := (hkeeps.of_ok hok).2
    have hconfig : t.config = s.config := congrArg Setting.config (setting_of_ground hground)
    have hentry : t.context.kernelEntry = s.context.kernelEntry := kernelEntry_of_ground hground
    have hmemory : t.memory = s.memory := memory_of_ground hground
    rw [hstepped] at hsettled ⊢
    exact h.of_same hsettled (BootState.isLate_next hs) hconfig hentry hmemory
  · have hground : s.stepped.ground = s.ground := (hkeeps.of_error herror).2
    have hsetting := setting_of_ground hground
    exact h.of_same hsettled (congrArg (·.state.isLate) hsetting) (congrArg Setting.config hsetting)
      (kernelEntry_of_ground hground) (memory_of_ground hground)

theorem setting_of_action (hs : s.state ≠ .detect) :
    (final (Boot.action s.state s.announced)).setting = s.setting :=
  (Boot.spares_nothing hs s.announced rfl).1

/-- The copies put the payloads in place, or leave the kernel without an entry. -/
theorem Kept.stepped_of_copies (hm : m₀.Orderly) (hp : ∀ p, c.platform = some p → p.Discerns c)
    (h : Kept c m₀ s) (hs : s.state = .copyPayloads) : Kept c m₀ s.stepped := by
  have hsettled := h.toSettled.stepped hm
  have hmemory := h.orderly hm
  have hentry : s.context.kernelEntry = none := h.early (by rw [hs]; rfl)
  have hsetting := setting_of_action (s := s) (by rw [hs]; exact nofun)
  obtain ⟨p, hsp, hchecked⟩ := h.checked (by rw [hs]; exact nofun)
  have hcp := h.platform p hsp
  have hapart : ∀ kernel, s.config.kernel = some kernel → ∀ x,
      s.config.hypervisor.footprint.Holds x → kernel.footprint.Avoids x := by
    intro kernel hkernel x hx
    have hfootprint : ∀ payload ∈ s.config.payloads, p.Uniform payload.footprint :=
      fun payload hpayload => (hp p hcp).footprints payload (h.config.payloads hpayload)
    exact ⟨p, _, hfootprint _ (BootConfig.mem_payloads_of_kernel hkernel),
      hfootprint _ List.mem_cons_self, (BootConfig.checkPlacement_eq_ok hchecked).2 kernel hkernel, hx⟩
  have haction : Boot.action s.state s.announced = Boot.copyPayloads s.announced := by rw [hs]; rfl
  rw [haction] at hsetting
  cases hcopy : Boot.copyPayloads s.announced with
  | ok _ t =>
    have hplaced := Boot.placed_of_copyPayloads (s := s.announced) hmemory hentry hapart hcopy
    rw [stepped_of_ok (haction.trans hcopy)] at hsettled ⊢
    rw [hs] at hsettled ⊢
    exact ⟨hsettled, nofun, fun _ => ⟨hplaced.hypervisor, hplaced.kernel⟩⟩
  | error e t =>
    have hsame := Boot.kernelEntry_of_copyPayloads_error (s := s.announced) hmemory hcopy
    rw [hcopy] at hsetting
    have hstate : t.state = .copyPayloads := (congrArg Setting.state hsetting).trans hs
    rw [stepped_of_error (haction.trans hcopy)] at hsettled ⊢
    refine ⟨hsettled, fun _ => hsame.trans hentry, fun hlate => ?_⟩
    rw [hstate] at hlate
    cases hlate

/-- What the cleanup protects stays in its place. -/
theorem Kept.stepped_of_fixup (hm : m₀.Orderly) (hp : ∀ p, c.platform = some p → p.Discerns c)
    (h : Kept c m₀ s) (hs : s.state = .archPreJumpFixup) : Kept c m₀ s.stepped := by
  have hsettled := h.toSettled.stepped hm
  have hsetting := setting_of_action (s := s) (by rw [hs]; exact nofun)
  have hguarded : ∀ payload ∈ s.config.payloads, ∀ x, payload.footprint.Holds x →
      s.setting.Protects .cleanup x := by
    intro payload hpayload x hx
    refine h.protects hp (q := payload.footprint) ?_ ?_ hx
    · exact List.mem_append_right _ (List.mem_map_of_mem hpayload)
    · exact fun p hcp => (hp p hcp).footprints payload (h.config.payloads hpayload)
  have haction : Boot.action s.state s.announced = Boot.preJumpFixup s.announced := by rw [hs]; rfl
  have hbefore : Boot.Placed s := h.late (by rw [hs]; rfl)
  have hplaced : Boot.Placed (final (Boot.preJumpFixup s.announced)) :=
    Boot.placed_of_preJumpFixup (s := s.announced) (h.orderly hm)
      ⟨hbefore.hypervisor, hbefore.kernel⟩ hguarded
  rw [haction] at hsetting
  cases hfixup : Boot.preJumpFixup s.announced with
  | ok _ t =>
    rw [hfixup] at hplaced
    rw [stepped_of_ok (haction.trans hfixup)] at hsettled ⊢
    rw [hs] at hsettled ⊢
    exact ⟨hsettled, nofun, fun _ => ⟨hplaced.hypervisor, hplaced.kernel⟩⟩
  | error e t =>
    rw [hfixup] at hplaced hsetting
    have hstate : t.state = .archPreJumpFixup := (congrArg Setting.state hsetting).trans hs
    rw [stepped_of_error (haction.trans hfixup)] at hsettled ⊢
    refine ⟨hsettled, fun hearly => ?_, fun _ => hplaced⟩
    rw [hstate] at hearly
    cases hearly

theorem Kept.stepped_of_detect (hm : m₀.Orderly) (h : Kept c m₀ s) (hs : s.state = .detect) :
    Kept c m₀ s.stepped := by
  have hsettled := h.toSettled.stepped hm
  rcases Session.stepped_of_detect lenient_blind.toQuiet hs with
    ⟨w, -, hstay | ⟨p, f, d, -, -, -, ⟨-, -, hok⟩ | herror⟩⟩
  · rw [hstay] at hsettled ⊢
    exact h.of_same hsettled rfl rfl rfl rfl
  · have hentry : s.context.kernelEntry = none := h.early (by rw [hs]; rfl)
    rw [hok] at hsettled ⊢
    exact ⟨hsettled, fun _ => hentry, nofun⟩
  · have hentry : s.context.kernelEntry = none := h.early (by rw [hs]; rfl)
    rw [herror] at hsettled ⊢
    exact ⟨hsettled, fun _ => hentry, fun hlate => absurd hlate (by rw [hs]; exact nofun)⟩

theorem Kept.stepped (hm : m₀.Orderly) (hp : ∀ p, c.platform = some p → p.Discerns c)
    (h : Kept c m₀ s) : Kept c m₀ s.stepped := by
  cases hs : s.state with
  | detect => exact h.stepped_of_detect hm hs
  | copyPayloads => exact h.stepped_of_copies hm hp hs
  | archPreJumpFixup => exact h.stepped_of_fixup hm hp hs
  | _ => exact h.stepped_of_quiet hm (by rw [hs]; rfl)

/-- A boot that comes to the transfer has its hypervisor, and the kernel that it is going to name,
in memory as they were embedded: no later placement and no clear has damaged them. -/
theorem placed_of_runUntilTransfer {world : World φ} {memory : Memory} {config : BootConfig}
    {s : Session φ Memory} (hm : memory.Orderly)
    (hp : ∀ p, config.platform = some p → p.Discerns config)
    (h : Boot.runUntilTransfer (Session.start world memory config) = .ok () s) :
    config.hypervisor.PlacedIn s.memory ∧ (s.context.kernelEntry.isSome →
      ∃ kernel, config.kernel = some kernel ∧ kernel.PlacedIn s.memory) := by
  obtain ⟨n, rfl, htransfer⟩ := Boot.runUntilTransfer_eq_ok h
  have hstart : Kept config memory (Session.start world memory config) :=
    ⟨settled_start world memory config, fun _ => rfl, nofun⟩
  have hkept := afterSteps_induction (fun _ h => h.stepped hm hp) hstart n
  obtain ⟨hhypervisor, hkernel⟩ := hkept.late (by rw [htransfer]; rfl)
  refine ⟨hkept.config.hypervisor ▸ hhypervisor, fun hsome => ?_⟩
  obtain ⟨kernel, hmem, hplaced⟩ := hkernel hsome
  exact ⟨kernel, hkept.config.kernel hmem, hplaced⟩

theorem placed_of_runUntilTransfer_sample :
    ∃ s, Boot.runUntilTransfer (start Sample.world Sample.memory Sample.config) = .ok () s ∧
      Sample.config.hypervisor.PlacedIn s.memory ∧ ∃ kernel,
        Sample.config.kernel = some kernel ∧ kernel.PlacedIn s.memory := by
  have hrun : Sample.bootsKernel (Boot.runUntilTransfer
      (start Sample.world Sample.memory Sample.config)) = true := by decide +kernel
  cases h : Boot.runUntilTransfer (start Sample.world Sample.memory Sample.config) with
  | ok _ s =>
    rw [h] at hrun
    obtain ⟨hhypervisor, hkernel⟩ :=
      placed_of_runUntilTransfer Sample.orderly_memory Sample.discerns_config h
    exact ⟨s, rfl, hhypervisor, hkernel hrun⟩
  | error e s =>
    rw [h] at hrun
    cases hrun

end Session

end BootLoader
