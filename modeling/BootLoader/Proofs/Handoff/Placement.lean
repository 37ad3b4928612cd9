import BootLoader.Proofs.Handoff.Setting
import BootLoader.Proofs.Pe.Effect
import BootLoader.Proofs.Platform.Clear

/-! What a boot writes. A payload is written inside its footprint, and a clear spares the protected
regions, so a byte that is guarded against both lasts. -/

namespace BootLoader

variable {φ : Type} {ε α β : Type}

/-! ## A payload in memory -/

/-- Every byte of a plain payload is in its place; of an image, every byte that a section's raw data
covers is the one that the last such section has for it. -/
def Payload.PlacedIn (p : Payload) (m : Memory) : Prop :=
  match p.format with
  | .raw => ∀ i < p.bytes.size, m.byte? (p.load.toNat + i) = p.bytes.get? i
  | .pe => ∃ image, Pe.Image.parse p.bytes = .ok image ∧
      image.readable.map (·.index) = image.indices ∧
      ∀ x s, Pe.lastCovering? p.load image.readable x = some s →
        s.sourceOf p.load x < p.bytes.size ∧ m.byte? x = p.bytes.get? (s.sourceOf p.load x)

namespace Payload

variable {p : Payload} {m m' : Memory}

theorem footprint_of_raw (h : p.format = .raw) : p.footprint = p.destination := by
  rw [footprint, h]

theorem footprint_of_parsed {image : Pe.Image} (h : p.format = .pe)
    (hparse : Pe.Image.parse p.bytes = .ok image) : p.footprint = ⟨p.load, image.footprint⟩ := by
  rw [footprint, h, hparse]

/-- Where a payload is depends on the bytes of its footprint only. -/
theorem PlacedIn.of_footprint (hp : p.PlacedIn m)
    (h : ∀ x, p.footprint.Holds x → m'.byte? x = m.byte? x) : p.PlacedIn m' := by
  unfold PlacedIn at hp ⊢
  cases hformat : p.format with
  | raw =>
    rw [hformat] at hp
    intro i hi
    rw [h, hp i hi]
    rw [footprint_of_raw hformat]
    exact ⟨Nat.le_add_right _ _, Nat.add_lt_add_left hi _⟩
  | pe =>
    rw [hformat] at hp
    obtain ⟨image, hparse, hall, hbytes⟩ := hp
    refine ⟨image, hparse, hall, fun x s hs => ?_⟩
    obtain ⟨hsource, hbyte⟩ := hbytes x s hs
    obtain ⟨hmem, hcovers⟩ := Pe.lastCovering?_mem hs
    refine ⟨hsource, ?_⟩
    rw [h, hbyte]
    rw [footprint_of_parsed hformat hparse]
    exact Pe.holds_footprint hmem hcovers

end Payload

theorem BootConfig.mem_payloads_of_kernel {c : BootConfig} {kernel : Payload}
    (h : c.kernel = some kernel) : kernel ∈ c.payloads := by
  rw [payloads, h]
  exact List.mem_cons_of_mem _ List.mem_cons_self

/-! ## What a setting guards -/

/-- The setting lasts, and under it so do the windows of the memory and the guarded bytes. -/
def Spares (σ : Setting) (G : Nat → Prop) (s t : Session φ Memory) : Prop :=
  s.setting = σ → t.setting = σ ∧
    (s.memory.Orderly → s.memory.AgreesOff (fun x => ¬ G x) t.memory)

/-- A range that some platform tells from `r` holds the address. -/
def Region.Avoids (r : Region) (x : Nat) : Prop :=
  ∃ (p : Platform) (q : Region), p.Uniform r ∧ p.Uniform q ∧ p.aliases q r = false ∧ q.Holds x

/-- The clears of this phase spare the address, since it is in a protected region. -/
def Setting.Protects (σ : Setting) (phase : ClearPhase) (x : Nat) : Prop :=
  ∀ p, σ.platform = some p → (∀ r ∈ p.clearPlan phase, p.Uniform r) ∧
    ∃ q ∈ σ.config.protectedRegions σ.loaderImage phase, p.Uniform q ∧ q.Holds x

variable {σ : Setting} {G : Nat → Prop}

instance : IsPreorder (Session φ Memory) (Spares σ G) where
  refl s hs := ⟨hs, fun _ => .refl s.memory⟩
  trans s t u h h' hs := by
    obtain ⟨ht, hst⟩ := h hs
    obtain ⟨hu, htu⟩ := h' ht
    exact ⟨hu, fun hm => (hst hm).trans (htu (hm.of_extents (hst hm).extents))⟩

theorem Spares.of_ground {s t : Session φ Memory} (h : t.ground = s.ground) : Spares σ G s t := by
  intro hs
  rw [Session.memory_of_ground h]
  exact ⟨(Session.setting_of_ground h).trans hs, fun _ => .refl s.memory⟩

/-- A byte off `r` lasts if only bytes of `r` are written. -/
theorem Memory.AgreesOff.spares {r : Region} {m m' : Memory} (h : m.AgreesOff r.Holds m')
    (hm : m.Orderly) (hG : ∀ x, G x → r.Avoids x) : m.AgreesOff (fun x => ¬ G x) m' := by
  refine ⟨h.extents, fun x hx => ?_⟩
  obtain ⟨p, q, hr, hq, hapart, hqx⟩ := hG x (Classical.not_not.mp hx)
  by_cases hmapped : (m.byte? x).isSome
  · exact h.byte? x (hq.not_holds hr hapart (hm.lt_of_isSome hmapped) hqx)
  · exact h.eq_of_unmapped hmapped

namespace Boot

theorem keeps_of_ground {x : Boot φ Memory α} (h : Keeps (Same Session.ground) x) :
    Keeps (Spares σ G) x := h.mono fun _ _ => Spares.of_ground

theorem keeps_get_bind {f : Session φ Memory → Boot φ Memory α}
    (h : ∀ s, s.setting = σ → Keeps (Spares σ G) (f s)) : Keeps (Spares σ G) (get >>= f) :=
  fun s hs => h s hs s hs

theorem keeps_platform_bind {f : Platform → Boot φ Memory α}
    (h : ∀ p, σ.platform = some p → Keeps (Spares σ G) (f p)) :
    Keeps (Spares σ G) (platform >>= f) := by
  intro s hs
  cases hp : s.context.platform with
  | some p =>
    rw [bind_of_ok (platform_of_some hp)]
    exact h p (hs ▸ hp) s hs
  | none =>
    rw [bind_of_error (platform_of_none hp)]
    exact refl_of (Spares σ G) s hs

section Console

variable [Console φ]

theorem inMemory_eq_ok {μ : Type} {wrap : ε → BootError} {x : Task μ ε α} {s t : Session φ μ} {a : α}
    (h : inMemory wrap x s = .ok a t) :
    (x.run s.memory).1.result = .ok a ∧ t.memory = (x.run s.memory).2 := by
  unfold inMemory at h
  dsimp only at h
  cases hresult : (x.run s.memory).1.result with
  | ok b =>
    rw [hresult] at h
    cases h
    exact ⟨rfl, rfl⟩
  | error e =>
    rw [hresult] at h
    cases h

theorem inMemory_of_error {μ : Type} (wrap : ε → BootError) {x : Task μ ε α} {s : Session φ μ} {e : ε}
    (h : (x.run s.memory).1.result = .error e) : ∃ t, inMemory wrap x s = .error (wrap e) t := by
  unfold inMemory
  dsimp only
  rw [h]
  exact ⟨_, rfl⟩

theorem inMemory_eq_error {μ : Type} {wrap : ε → BootError} {x : Task μ ε α}
    {s t : Session φ μ} {e : BootError}
    (h : inMemory wrap x s = .error e t) :
    ∃ cause, (x.run s.memory).1.result = .error cause ∧ e = wrap cause := by
  unfold inMemory at h
  dsimp only at h
  cases hresult : (x.run s.memory).1.result with
  | ok a =>
    rw [hresult] at h
    cases h
  | error cause =>
    rw [hresult] at h
    cases h
    exact ⟨cause, rfl, rfl⟩

theorem keeps_kernelEntry_inMemory {wrap : ε → BootError} {x : Task Memory ε α} :
    Keeps (Same fun s : Session φ Memory => s.context.kernelEntry) (inMemory wrap x) := by
  intro s
  unfold inMemory
  dsimp only
  cases (x.run s.memory).1.result <;> rfl

theorem keeps_inMemory {wrap : ε → BootError} {x : Task Memory ε α}
    (h : ∀ m : Memory, m.Orderly → m.AgreesOff (fun x => ¬ G x) (x.run m).2) :
    Keeps (Spares σ G) (inMemory wrap x : Boot φ Memory α) := by
  intro s hs
  have hwrites := h s.memory
  unfold inMemory
  dsimp only
  cases (x.run s.memory).1.result <;> exact ⟨hs, hwrites⟩

end Console

variable [Firmware φ]

/-! ## Clears -/

theorem keeps_clear {phase : ClearPhase} (hG : ∀ x, G x → σ.Protects phase x) :
    Keeps (Spares σ G) (clear phase : Boot φ Memory Unit) := by
  refine keeps_platform_bind fun p hp => keeps_get_bind fun s hs => ?_
  refine Keeps.bind (keeps_of_ground fun _ => rfl) fun _ => ?_
  refine Keeps.bind (keeps_inMemory fun m hm => ?_) fun cleared =>
    keeps_of_ground (Keeps.modify fun _ => rfl)
  have hwrites := p.clear_run_agreesOff phase
    (s.config.protectedRegions s.context.loaderImage phase) m
  refine ⟨hwrites.extents, fun x hx => ?_⟩
  obtain ⟨hplan, q, hq, huniform, hqx⟩ := hG x (Classical.not_not.mp hx) p hp
  rw [← hs] at hq
  exact Platform.clear_keeps hm hplan hq huniform hqx

/-! ## Placements -/

theorem run_copy_agreesOff {p : Payload} (h : p.format = .raw) (m : Memory) :
    m.AgreesOff p.footprint.Holds
      ((.update id fun m => Mapping.copy m p.load p.bytes : Task Memory MemoryError Unit).run m).2 := by
  rw [Task.run_snd, Payload.footprint_of_raw h]
  exact Task.keeps_update (fun m => Mapping.copy_agreesOff m p.load p.bytes) ⟨[], m⟩

theorem run_load_agreesOff {p : Payload} (h : p.format = .pe) {m : Memory} (hm : m.Orderly) :
    m.AgreesOff p.footprint.Holds ((Pe.load p.bytes p.load).run m).2 := by
  rw [Task.run_snd]
  refine (Pe.load_agreesOff p.bytes p.load ⟨[], m⟩ hm).mono ?_
  rintro x ⟨image, hparse, hx⟩
  rwa [Payload.footprint_of_parsed h hparse]

theorem keeps_place {p : Payload} (hG : ∀ x, G x → p.footprint.Avoids x) :
    Keeps (Spares σ G) (place p : Boot φ Memory Address) := by
  refine Keeps.bind (keeps_of_ground fun _ => rfl) fun _ => ?_
  cases hformat : p.format with
  | raw =>
    refine Keeps.bind (keeps_inMemory fun m hm => ?_) fun _ => Keeps.pure _
    exact (run_copy_agreesOff hformat m).spares hm hG
  | pe =>
    refine Keeps.bind (keeps_inMemory fun m hm => ?_) fun _ => Keeps.pure _
    exact (run_load_agreesOff hformat hm).spares hm hG

theorem placedIn_of_copy {p : Payload} (hformat : p.format = .raw) {m m' : Memory} (hm : m.Orderly)
    (h : Mapping.copy m p.load p.bytes = (.ok (), m')) : p.PlacedIn m' := by
  unfold Payload.PlacedIn
  rw [hformat]
  intro i hi
  have hbyte := Mapping.byte?_copy hm.apart p.load p.bytes (by rw [h]) (p.load.toNat + i)
  rwa [if_pos (by omega), Nat.add_sub_cancel_left, h] at hbyte

theorem placedIn_of_load {p : Payload} (hformat : p.format = .pe) {t t' : Told Memory}
    {l : Pe.Loaded} (hm : t.state.Orderly) (h : Pe.load p.bytes p.load t = .ok l t') :
    p.PlacedIn t'.state := by
  obtain ⟨image, hparse, hall, hfits, -, -, hbyte⟩ := Pe.load_ok hm h
  unfold Payload.PlacedIn
  rw [hformat]
  refine ⟨image, hparse, hall, fun x s hs => ?_⟩
  obtain ⟨hmem, hcovers⟩ := Pe.lastCovering?_mem hs
  have hsome := Pe.Section.isSome_source (hfits s hmem) hcovers
  refine ⟨Bytes.get?_isSome.mp hsome, ?_⟩
  rw [hbyte x, Pe.byteFrom?, hs, Option.bind_some]
  exact Option.or_of_isSome hsome

theorem placedIn_of_place {p : Payload} {s t : Session φ Memory} {a : Address}
    (hm : s.memory.Orderly) (h : place p s = .ok a t) : p.PlacedIn t.memory := by
  unfold place at h
  rw [bind_eq_ok] at h
  obtain ⟨_, u, hsay, h⟩ := h
  cases hsay
  cases hformat : p.format with
  | raw =>
    rw [hformat] at h
    obtain ⟨_, v, hcopy, h⟩ := bind_eq_ok.mp h
    cases h
    obtain ⟨hdone, hmemory⟩ := inMemory_eq_ok hcopy
    obtain ⟨u, hrun, hstate⟩ := Task.run_eq_ok.mp hdone
    rw [hmemory, hstate]
    exact placedIn_of_copy hformat hm (Task.update_eq_ok hrun)
  | pe =>
    rw [hformat] at h
    obtain ⟨l, v, hload, h⟩ := bind_eq_ok.mp h
    cases h
    obtain ⟨hdone, hmemory⟩ := inMemory_eq_ok hload
    obtain ⟨u, hrun, hstate⟩ := Task.run_eq_ok.mp hdone
    rw [hmemory, hstate]
    exact placedIn_of_load hformat hm hrun

theorem keeps_placeKernel {kernel : Payload} (hG : ∀ x, G x → kernel.footprint.Avoids x) :
    Keeps (Spares σ G) (placeKernel kernel : Boot φ Memory Unit) := by
  unfold placeKernel
  refine Keeps.bind (keeps_of_ground fun _ => rfl) fun _ => ?_
  refine Keeps.bind (keeps_attempt (keeps_place hG)) fun placed => ?_
  cases placed with
  | ok entry => exact Keeps.modify fun s hs => ⟨hs, fun _ => .refl s.memory⟩
  | error e =>
    refine Keeps.bind Keeps.get fun s => ?_
    split
    · exact keeps_of_ground fun _ => rfl
    · exact Keeps.throw e

theorem keeps_copyPayloads (hclear : ∀ x, G x → σ.Protects .preparation x)
    (hplace : ∀ p ∈ σ.config.payloads, ∀ x, G x → p.footprint.Avoids x) :
    Keeps (Spares σ G) (copyPayloads : Boot φ Memory Unit) := by
  refine Keeps.bind (keeps_clear hclear) fun _ => keeps_get_bind fun s hs => ?_
  have hconfig : s.config = σ.config := congrArg Setting.config hs
  rw [hconfig]
  refine Keeps.bind (keeps_of_ground fun _ => rfl) fun _ => ?_
  refine Keeps.bind (keeps_place (hplace _ List.mem_cons_self)) fun entry => ?_
  refine Keeps.bind (Keeps.modify fun s hs => ⟨hs, fun _ => .refl s.memory⟩) fun _ => ?_
  cases hkernel : σ.config.kernel with
  | none => exact Keeps.pure ()
  | some kernel => exact keeps_placeKernel (hplace kernel (BootConfig.mem_payloads_of_kernel hkernel))

theorem keeps_preJumpFixup (hclear : ∀ x, G x → σ.Protects .cleanup x) :
    Keeps (Spares σ G) (preJumpFixup : Boot φ Memory Unit) := by
  refine Keeps.bind (keeps_clear hclear) fun _ => ?_
  refine keeps_platform_bind fun p hp => ?_
  have hhook := keeps_hook (μ := Memory) (lenient_blind (φ := φ)).toPatient p .preJumpFixup
  refine Keeps.bind (keeps_of_ground (hhook.mono fun _ _ h => h.2)) fun _ => ?_
  exact keeps_of_ground fun _ => rfl

/-! ## Where the kernel was placed -/

omit [Firmware φ] in
theorem keeps_kernelEntry_of_ground {x : Boot φ Memory α}
    (hx : Keeps (Session.Along (Same fun _ => ()) Session.ground) x) :
    Keeps (Same fun s : Session φ Memory => s.context.kernelEntry) x :=
  hx.mono fun _ _ h => Session.kernelEntry_of_ground h.2

theorem keeps_kernelEntry_clear (phase : ClearPhase) :
    Keeps (Same fun s : Session φ Memory => s.context.kernelEntry) (clear phase) := by
  refine Keeps.bind (keeps_kernelEntry_of_ground keeps_platform) fun p => ?_
  refine Keeps.bind Keeps.get fun s => Keeps.bind (fun _ => rfl) fun _ => ?_
  exact Keeps.bind keeps_kernelEntry_inMemory fun _ => Keeps.modify fun _ => rfl

theorem keeps_kernelEntry_place (p : Payload) :
    Keeps (Same fun s : Session φ Memory => s.context.kernelEntry) (place p) := by
  unfold place
  refine Keeps.bind (fun _ => rfl) fun _ => ?_
  split
  · exact Keeps.bind keeps_kernelEntry_inMemory fun _ => Keeps.pure _
  · exact Keeps.bind keeps_kernelEntry_inMemory fun _ => Keeps.pure _

def recorded (phase : WritePhase) (s : Session φ Memory) : Session φ Memory :=
  { s with world := { s.world with machine := s.world.machine.record (.writes phase) } }

omit [Firmware φ] in
theorem record_apply (phase : WritePhase) (s : Session φ Memory) :
    (record (.writes phase) : Boot φ Memory Unit) s = .ok () (recorded phase s) := rfl

/-- The entry of the kernel is set only with the kernel in its place. -/
theorem placeKernel_cases (kernel : Payload) {s : Session φ Memory} (hm : s.memory.Orderly) :
    (∃ t, placeKernel kernel s = .ok () t ∧ kernel.PlacedIn t.memory) ∨
      (final (placeKernel kernel s)).context.kernelEntry = s.context.kernelEntry := by
  have hkeeps := keeps_kernelEntry_place kernel (recorded .placeKernel s)
  unfold placeKernel
  rw [bind_of_ok (record_apply .placeKernel s)]
  cases hplace : place kernel (recorded .placeKernel s) with
  | ok entry t =>
    rw [bind_of_ok (attempt_of_ok hplace)]
    have hrecorded : (recorded .placeKernel s).memory.Orderly := hm
    have hplaced : kernel.PlacedIn t.memory := placedIn_of_place hrecorded hplace
    exact .inl ⟨_, rfl, hplaced⟩
  | error e t =>
    rw [hplace] at hkeeps
    rw [bind_of_ok (attempt_of_error hplace)]
    right
    dsimp only
    rw [get_bind]
    split <;> exact hkeeps

omit [Firmware φ] in
/-- Where nothing is guarded, the setting and the windows still last. -/
theorem steady_of_spares {x : Boot φ Memory α} {s : Session φ Memory}
    (hx : Keeps (Spares s.setting fun _ => False) x) (hm : s.memory.Orderly) :
    (final (x s)).setting = s.setting ∧ (final (x s)).memory.Orderly := by
  obtain ⟨hsetting, hwrites⟩ := hx s rfl
  exact ⟨hsetting, hm.of_extents (hwrites hm).extents⟩

/-- The copies fail before the kernel's turn, or the hypervisor is in its place by then. -/
theorem copyPayloads_cases {s : Session φ Memory} (hm : s.memory.Orderly) :
    (∃ e t, copyPayloads s = .error e t ∧ t.context.kernelEntry = s.context.kernelEntry) ∨
    ∃ t, t.setting = s.setting ∧ t.context.kernelEntry = s.context.kernelEntry ∧
      t.memory.Orderly ∧ s.config.hypervisor.PlacedIn t.memory ∧
      (s.config.kernel = none ∧ copyPayloads s = .ok () t ∨
        ∃ kernel, s.config.kernel = some kernel ∧ copyPayloads s = placeKernel kernel t) := by
  have hspares : Keeps (Spares s.setting fun _ => False)
      (clear .preparation : Boot φ Memory Unit) := keeps_clear fun _ h => h.elim
  have hcleared := steady_of_spares hspares hm
  have hentry := keeps_kernelEntry_clear .preparation s
  unfold copyPayloads
  cases hclear : clear .preparation s with
  | error e t =>
    rw [hclear] at hentry
    exact .inl ⟨e, t, bind_of_error hclear, hentry⟩
  | ok _ u =>
    rw [hclear] at hentry hcleared
    obtain ⟨hsetting, hu⟩ := hcleared
    change u.setting = s.setting at hsetting
    have hconfig : u.config = s.config := congrArg Setting.config hsetting
    rw [bind_of_ok hclear, get_bind, bind_of_ok (record_apply .placeHypervisor u), hconfig]
    have hrecorded : (recorded .placeHypervisor u).memory.Orderly := hu
    have hplaced := steady_of_spares (keeps_place (p := s.config.hypervisor) fun _ h => h.elim)
      hrecorded
    have hentry' := keeps_kernelEntry_place s.config.hypervisor (recorded .placeHypervisor u)
    cases hplace : place s.config.hypervisor (recorded .placeHypervisor u) with
    | error e t =>
      rw [hplace] at hentry'
      exact .inl ⟨e, t, bind_of_error hplace, hentry'.trans hentry⟩
    | ok entry t =>
      rw [hplace] at hentry' hplaced
      have hplacedIn : s.config.hypervisor.PlacedIn t.memory :=
        placedIn_of_place hrecorded hplace
      rw [bind_of_ok hplace]
      refine .inr ⟨{ t with context := { t.context with entry := some entry } },
        hplaced.1.trans hsetting, hentry'.trans hentry, hplaced.2, hplacedIn, ?_⟩
      cases s.config.kernel with
      | none => exact .inl ⟨rfl, rfl⟩
      | some kernel => exact .inr ⟨kernel, rfl, rfl⟩

structure Placed (s : Session φ Memory) : Prop where
  hypervisor : s.config.hypervisor.PlacedIn s.memory
  kernel : s.context.kernelEntry.isSome →
    ∃ kernel, s.config.kernel = some kernel ∧ kernel.PlacedIn s.memory

/-- A footprint that is kept off the kernel's keeps the hypervisor. -/
theorem placed_of_copyPayloads {s t : Session φ Memory} (hm : s.memory.Orderly)
    (hentry : s.context.kernelEntry = none)
    (hapart : ∀ kernel, s.config.kernel = some kernel →
      ∀ x, s.config.hypervisor.footprint.Holds x → kernel.footprint.Avoids x)
    (h : copyPayloads s = .ok () t) : Placed t := by
  rcases copyPayloads_cases hm with
    ⟨e, u, herror, -⟩ | ⟨u, hsetting, huentry, hu, hhypervisor, hkernel⟩
  · rw [herror] at h
    cases h
  · have hconfig : u.config = s.config := congrArg Setting.config hsetting
    rcases hkernel with ⟨-, hok⟩ | ⟨kernel, hkernel, hok⟩
    · rw [hok] at h
      cases h
      refine ⟨hconfig ▸ hhypervisor, fun hsome => ?_⟩
      rw [huentry, hentry] at hsome
      cases hsome
    · rw [hok] at h
      have hspares := keeps_placeKernel (φ := φ) (σ := u.setting) (hapart kernel hkernel)
      obtain ⟨htsetting, hwrites⟩ := hspares.of_ok h rfl
      have htconfig : t.config = s.config := (congrArg Setting.config htsetting).trans hconfig
      refine ⟨?_, fun hsome => ?_⟩
      · rw [htconfig]
        exact hhypervisor.of_footprint fun x hx => (hwrites hu).byte? x (Classical.not_not.mpr hx)
      · rw [htconfig]
        rcases placeKernel_cases kernel hu with ⟨v, hv, hplaced⟩ | hsame
        · rw [h] at hv
          cases hv
          exact ⟨kernel, hkernel, hplaced⟩
        · rw [h] at hsame
          change t.context.kernelEntry = _ at hsame
          rw [hsame, huentry, hentry] at hsome
          cases hsome

theorem kernelEntry_of_copyPayloads_error {s t : Session φ Memory} {e : BootError}
    (hm : s.memory.Orderly) (h : copyPayloads s = .error e t) :
    t.context.kernelEntry = s.context.kernelEntry := by
  rcases copyPayloads_cases hm with
    ⟨e', u, herror, hentry⟩ | ⟨u, -, hentry, hu, -, ⟨-, hok⟩ | ⟨kernel, -, hok⟩⟩
  · rw [herror] at h
    cases h
    exact hentry
  · rw [hok] at h
    cases h
  · rw [hok] at h
    rcases placeKernel_cases kernel hu with ⟨v, hv, -⟩ | hsame
    · rw [h] at hv
      cases hv
    · rw [h] at hsame
      exact hsame.trans hentry

theorem keeps_kernelEntry_preJumpFixup :
    Keeps (Same fun s : Session φ Memory => s.context.kernelEntry) preJumpFixup := by
  refine Keeps.bind (keeps_kernelEntry_clear _) fun _ => ?_
  refine Keeps.bind (keeps_kernelEntry_of_ground keeps_platform) fun p => ?_
  refine Keeps.bind (keeps_kernelEntry_of_ground ?_) fun _ => fun _ => rfl
  exact keeps_hook lenient_blind.toPatient p .preJumpFixup

/-- What the cleanup spares stays placed. -/
theorem placed_of_preJumpFixup {s : Session φ Memory} (hm : s.memory.Orderly) (h : Placed s)
    (hguarded : ∀ p ∈ s.config.payloads, ∀ x, p.footprint.Holds x →
      s.setting.Protects .cleanup x) :
    Placed (final (preJumpFixup s)) := by
  have hspares : Keeps (Spares s.setting fun x => ∃ p ∈ s.config.payloads, p.footprint.Holds x)
      (preJumpFixup : Boot φ Memory Unit) :=
    keeps_preJumpFixup fun x ⟨p, hp, hx⟩ => hguarded p hp x hx
  obtain ⟨hsetting, hwrites⟩ := hspares s rfl
  have hconfig : (final (preJumpFixup s)).config = s.config := congrArg Setting.config hsetting
  have hlasts : ∀ p ∈ s.config.payloads, p.PlacedIn s.memory →
      p.PlacedIn (final (preJumpFixup s)).memory := fun p hp hplaced =>
    hplaced.of_footprint fun x hx =>
      (hwrites hm).byte? x (Classical.not_not.mpr ⟨p, hp, hx⟩)
  refine ⟨?_, fun hsome => ?_⟩
  · rw [hconfig]
    exact hlasts _ List.mem_cons_self h.hypervisor
  · have hentry : (final (preJumpFixup s)).context.kernelEntry = s.context.kernelEntry :=
      keeps_kernelEntry_preJumpFixup s
    rw [hentry] at hsome
    obtain ⟨kernel, hkernel, hplaced⟩ := h.kernel hsome
    have hmem := BootConfig.mem_payloads_of_kernel hkernel
    exact ⟨kernel, hconfig ▸ hkernel, hlasts kernel hmem hplaced⟩

end Boot

end BootLoader
