import BootLoader.Handoff.Run
import BootLoader.Proofs.Machine.Quiet

/-! What the parts of a boot leave alone. Only the first state settles what is booted and on what,
and only the clears and the placements touch the memory. The world moves along whatever relation its
own computations keep. -/

namespace BootLoader

variable {φ μ τ ε α : Type}

structure Setting where
  config : BootConfig
  state : BootState
  platform : Option Platform
  loaderImage : Region

namespace Session

def setting (s : Session φ μ) : Setting :=
  ⟨s.config, s.state, s.context.platform, s.context.loaderImage⟩

def known (s : Session φ μ) : Setting × Option Address := (s.setting, s.context.entry)

/-- What is known, where the kernel is entered, and the memory. -/
def ground (s : Session φ μ) : (Setting × Option Address) × Option Address × μ :=
  (s.known, s.context.kernelEntry, s.memory)

/-- The world moves along `R`, and `view` shows no difference. -/
def Along (R : World φ → World φ → Prop) (view : Session φ μ → τ) (s t : Session φ μ) : Prop :=
  R s.world t.world ∧ view t = view s

instance (R : World φ → World φ → Prop) [IsPreorder (World φ) R] (view : Session φ μ → τ) :
    IsPreorder (Session φ μ) (Along R view) where
  refl s := ⟨refl_of R s.world, rfl⟩
  trans _ _ _ h h' := ⟨trans_of R h.1 h'.1, h'.2.trans h.2⟩

variable {s t : Session φ μ}

theorem known_of_ground (h : t.ground = s.ground) : t.known = s.known := congrArg Prod.fst h

theorem setting_of_known (h : t.known = s.known) : t.setting = s.setting := congrArg Prod.fst h

theorem setting_of_ground (h : t.ground = s.ground) : t.setting = s.setting :=
  setting_of_known (known_of_ground h)

theorem kernelEntry_of_ground (h : t.ground = s.ground) :
    t.context.kernelEntry = s.context.kernelEntry := congrArg (Prod.fst ∘ Prod.snd) h

theorem memory_of_ground (h : t.ground = s.ground) : t.memory = s.memory :=
  congrArg (Prod.snd ∘ Prod.snd) h

end Session

open Session

/-- The states that leave the setting and the memory alone. -/
def BootState.isQuiet : BootState → Bool
  | .detect | .copyPayloads | .archPreJumpFixup => false
  | _ => true

namespace Boot

variable {R : World φ → World φ → Prop}

theorem keeps_inWorld {wrap : ε → BootError} {x : Host φ ε α} (hx : Keeps R x) :
    Keeps (Along R ground) (inWorld wrap x : Boot φ μ α) := by
  intro s
  have hw := hx s.world
  unfold inWorld
  cases h : x s.world <;> rw [h] at hw <;> exact ⟨hw, rfl⟩

theorem inWorld_of_ok {wrap : ε → BootError} {x : Host φ ε α} {s : Session φ μ} {a : α}
    {w : World φ} (h : x s.world = .ok a w) : inWorld wrap x s = .ok a { s with world := w } := by
  rw [inWorld, h]

theorem inWorld_of_error {wrap : ε → BootError} {x : Host φ ε α} {s : Session φ μ} {e : ε}
    {w : World φ} (h : x s.world = .error e w) :
    (inWorld wrap x : Boot φ μ α) s = .error (wrap e) { s with world := w } := by
  rw [inWorld, h]

theorem inWorld_eq_ok {wrap : ε → BootError} {x : Host φ ε α} {s t : Session φ μ} {a : α}
    (h : inWorld wrap x s = .ok a t) : ∃ w, x s.world = .ok a w ∧ t = { s with world := w } := by
  unfold inWorld at h
  cases hx : x s.world with
  | ok b w =>
    rw [hx] at h
    cases h
    exact ⟨w, rfl, rfl⟩
  | error e w =>
    rw [hx] at h
    cases h

theorem inWorld_eq_error {wrap : ε → BootError} {x : Host φ ε α} {s t : Session φ μ} {e : BootError}
    (h : inWorld wrap x s = .error e t) :
    ∃ cause, x s.world = .error cause t.world ∧ e = wrap cause := by
  unfold inWorld at h
  cases hx : x s.world with
  | ok a w =>
    rw [hx] at h
    cases h
  | error cause w =>
    rw [hx] at h
    cases h
    exact ⟨cause, rfl, rfl⟩

theorem inWorld_cases {wrap : ε → BootError} {x : Host φ ε α} (hx : Keeps R x) (s : Session φ μ) :
    ∃ w, R s.world w ∧ ((∃ a, inWorld wrap x s = .ok a { s with world := w }) ∨
      ∃ e, inWorld wrap x s = .error e { s with world := w }) := by
  cases h : x s.world with
  | ok a w => exact ⟨w, hx.of_ok h, .inl ⟨a, inWorld_of_ok h⟩⟩
  | error e w => exact ⟨w, hx.of_error h, .inr ⟨wrap e, inWorld_of_error h⟩⟩

theorem keeps_attempt {R : Session φ μ → Session φ μ → Prop} {x : Boot φ μ α} (hx : Keeps R x) :
    Keeps R (attempt x) := by
  intro s
  have hs := hx s
  unfold attempt
  cases h : x s <;> rw [h] at hs <;> exact hs

theorem attempt_of_ok {x : Boot φ μ α} {s t : Session φ μ} {a : α} (h : x s = .ok a t) :
    attempt x s = .ok (.ok a) t := by
  rw [attempt, h]

theorem attempt_of_error {x : Boot φ μ α} {s t : Session φ μ} {e : BootError}
    (h : x s = .error e t) : attempt x s = .ok (.error e) t := by
  rw [attempt, h]

theorem keeps_onContext [IsPreorder (World φ) R] {f : BootContext → BootContext}
    (hf : ∀ c, (f c).platform = c.platform ∧ (f c).loaderImage = c.loaderImage ∧
      (f c).entry = c.entry ∧ (f c).kernelEntry = c.kernelEntry) :
    Keeps (Along R ground) (onContext f : Boot φ μ Unit) := by
  refine Keeps.modify fun s => ⟨refl_of R s.world, ?_⟩
  obtain ⟨hplatform, hloader, hentry, hkernel⟩ := hf s.context
  simp only [ground, known, setting, hplatform, hloader, hentry, hkernel]

theorem keeps_platform [IsPreorder (World φ) R] :
    Keeps (Along R ground) (platform : Boot φ μ Platform) := by
  unfold platform
  refine Keeps.bind Keeps.get fun s => ?_
  split
  · exact Keeps.pure _
  · exact Keeps.throw _

variable [Firmware φ]

theorem keeps_say (h : Quiet R) (level : Level) (text : String) :
    Keeps (Along R ground) (say level text : Boot φ μ Unit) :=
  Keeps.modify fun s => ⟨h.say s.world _, rfl⟩

theorem keeps_trace (h : Quiet R) (text : String) :
    Keeps (Along R ground) (trace text : Boot φ μ Unit) :=
  Keeps.modify fun s => ⟨h.machine s.world _ (s.world.machine.idles_trace text), rfl⟩

theorem keeps_writes (h : Patient R) (phase : WritePhase) :
    Keeps (Along R ground) (record (.writes phase) : Boot φ μ Unit) :=
  Keeps.modify fun s => ⟨h.inner s.world (.writes phase) rfl, rfl⟩

variable [IsPreorder (World φ) R]

theorem keeps_hook (h : Patient R) (p : Platform) (k : Hook) :
    Keeps (Along R ground) (hook p k : Boot φ μ Unit) :=
  keeps_inWorld (Host.keeps_plainHook h p k)

/-! ## The states that leave the memory alone -/

theorem keeps_earlyInit (h : Patient R) : Keeps (Along R ground) (earlyInit : Boot φ μ Unit) :=
  Keeps.bind keeps_platform fun p => keeps_hook h p .earlyInit

theorem keeps_sayAll (h : Quiet R) (texts : List String) :
    Keeps (Along R ground) (texts.forM (say .info) : Boot φ μ Unit) := by
  induction texts with
  | nil => exact Keeps.pure ()
  | cons text texts ih => exact Keeps.bind (keeps_say h .info text) fun _ => ih

theorem keeps_generalInit (h : Patient R) :
    Keeps (Along R ground) (generalInit : Boot φ μ Unit) := by
  refine Keeps.bind keeps_platform fun p => ?_
  refine Keeps.bind (keeps_hook h p .init) fun _ => ?_
  refine Keeps.bind (keeps_hook h p .memoryInit) fun _ => ?_
  refine Keeps.bind (keeps_hook h p .setupDirectMapping) fun _ => ?_
  refine Keeps.bind (keeps_hook h p .serialInit) fun _ => ?_
  refine Keeps.bind (keeps_trace h.toQuiet _) fun _ => ?_
  exact Keeps.bind Keeps.get fun s => keeps_sayAll h.toQuiet (overview s p)

theorem keeps_diagnosticDump [Mapping μ] (h : Quiet R) :
    Keeps (Along R ground) (diagnosticDump : Boot φ μ Unit) := by
  unfold diagnosticDump
  refine Keeps.bind Keeps.get fun s => ?_
  refine Keeps.bind (keeps_onContext fun _ => ⟨rfl, rfl, rfl, rfl⟩) fun _ => ?_
  split
  · refine Keeps.bind (Keeps.modify fun s => ⟨h.sayAll s.world _, rfl⟩) fun _ => ?_
    split
    · exact Keeps.bind (keeps_say h _ _) fun _ => keeps_trace h _
    · exact keeps_say h _ _
  · exact keeps_say h _ _

theorem keeps_acquireMemoryMap (h : Lenient R) :
    Keeps (Along R ground) (acquireMemoryMap : Boot φ μ Unit) := by
  refine Keeps.bind keeps_platform fun p => ?_
  refine Keeps.bind (keeps_inWorld (Host.keeps_beforeExit h.toPatient h.bootHart p)) fun _ => ?_
  refine Keeps.bind (keeps_inWorld (Host.keeps_bootCpu h.toPatient h.bootHart p)) fun cpu => ?_
  refine Keeps.bind (keeps_say h.toQuiet _ _) fun _ => ?_
  refine Keeps.bind (keeps_onContext fun _ => ⟨rfl, rfl, rfl, rfl⟩) fun _ => ?_
  refine Keeps.bind (keeps_inWorld (Host.keeps_probeAndAllocate h)) fun buffer => ?_
  exact Keeps.modify fun s => refl_of (Along R ground) s

omit [Firmware φ] [IsPreorder (World φ) R] in
theorem takeMapBuffer_apply (s : Session φ μ) :
    takeMapBuffer s = match s.mapBuffer with
      | some buffer => .ok buffer { s with mapBuffer := none }
      | none => .error (.outOfOrder s.state) { s with mapBuffer := none } := by
  simp only [takeMapBuffer, get_bind, set_bind]
  cases s.mapBuffer <;> rfl

omit [Firmware φ] in
theorem keeps_takeMapBuffer : Keeps (Along R ground) (takeMapBuffer : Boot φ μ MapBuffer) := by
  intro s
  rw [takeMapBuffer_apply]
  cases s.mapBuffer <;> exact refl_of (Along R ground) s

theorem keeps_terminateFirmwareServices (h : Lenient R) :
    Keeps (Along R ground) (terminateFirmwareServices : Boot φ μ Unit) := by
  refine Keeps.bind keeps_takeMapBuffer fun buffer => ?_
  refine Keeps.bind (keeps_say h.toQuiet _ _) fun _ => ?_
  refine Keeps.bind (keeps_inWorld h.quiesce) fun _ => ?_
  refine Keeps.bind (keeps_inWorld (Host.keeps_fillAndExit h buffer)) fun map => ?_
  refine Keeps.bind (keeps_say h.toQuiet _ _) fun _ => ?_
  exact keeps_onContext fun _ => ⟨rfl, rfl, rfl, rfl⟩

/-- The quiet states touch nothing but the world. -/
theorem keeps_action [Mapping μ] (h : Lenient R) {state : BootState}
    (hstate : state.isQuiet = true) : Keeps (Along R ground) (action state : Boot φ μ Unit) := by
  cases state with
  | earlyArchInit => exact keeps_earlyInit h.toPatient
  | generalArchInit => exact keeps_generalInit h.toPatient
  | diagnosticDump => exact keeps_diagnosticDump h.toQuiet
  | acquireMemoryMap => exact keeps_acquireMemoryMap h
  | terminateFirmwareServices => exact keeps_terminateFirmwareServices h
  | transfer => exact Keeps.throw _
  | _ => cases hstate

/-! ## The states that write memory -/

omit [Firmware φ] [IsPreorder (World φ) R] in
theorem keeps_known_of_ground {x : Boot φ μ α} (hx : Keeps (Along R ground) x) :
    Keeps (Along R known) x := hx.mono fun _ _ h => ⟨h.1, known_of_ground h.2⟩

omit [Firmware φ] in
theorem keeps_known_onContext {f : BootContext → BootContext}
    (hf : ∀ c, (f c).platform = c.platform ∧ (f c).loaderImage = c.loaderImage ∧
      (f c).entry = c.entry) :
    Keeps (Along R known) (onContext f : Boot φ μ Unit) := by
  refine Keeps.modify fun s => ⟨refl_of R s.world, ?_⟩
  obtain ⟨hplatform, hloader, hentry⟩ := hf s.context
  simp only [known, setting, hplatform, hloader, hentry]

theorem keeps_known_inMemory (h : Quiet R) (wrap : ε → BootError) (x : Task μ ε α) :
    Keeps (Along R known) (inMemory wrap x : Boot φ μ α) := by
  intro s
  have hw := h.sayAll s.world (x.run s.memory).1.lines
  unfold inMemory
  dsimp only
  cases (x.run s.memory).1.result <;> exact ⟨hw, rfl⟩

variable [Mapping μ]

theorem keeps_clear_known (h : Patient R) (phase : ClearPhase) :
    Keeps (Along R known) (clear phase : Boot φ μ Unit) := by
  refine Keeps.bind (keeps_known_of_ground keeps_platform) fun p => Keeps.bind Keeps.get fun s => ?_
  refine Keeps.bind (keeps_known_of_ground (keeps_writes h _)) fun _ => ?_
  exact Keeps.bind (keeps_known_inMemory h.toQuiet _ _) fun _ =>
    keeps_known_onContext fun _ => ⟨rfl, rfl, rfl⟩

theorem keeps_place_known (h : Quiet R) (p : Payload) :
    Keeps (Along R known) (place p : Boot φ μ Address) := by
  refine Keeps.bind (keeps_known_of_ground (keeps_say h _ _)) fun _ => ?_
  split
  · exact Keeps.bind (keeps_known_inMemory h _ _) fun _ => Keeps.pure _
  · exact Keeps.bind (keeps_known_inMemory h _ _) fun _ => Keeps.pure _

theorem keeps_placeKernel_known (h : Patient R) (kernel : Payload) :
    Keeps (Along R known) (placeKernel kernel : Boot φ μ Unit) := by
  refine Keeps.bind (keeps_known_of_ground (keeps_writes h _)) fun _ => ?_
  refine Keeps.bind (keeps_attempt (keeps_place_known h.toQuiet kernel)) fun placed => ?_
  cases placed with
  | ok entry => exact keeps_known_onContext fun _ => ⟨rfl, rfl, rfl⟩
  | error e =>
    refine Keeps.bind Keeps.get fun s => ?_
    split
    · exact keeps_known_of_ground (keeps_say h.toQuiet _ _)
    · exact Keeps.throw e

theorem keeps_preJumpFixup_known (h : Patient R) :
    Keeps (Along R known) (preJumpFixup : Boot φ μ Unit) := by
  refine Keeps.bind (keeps_clear_known h _) fun _ => ?_
  refine Keeps.bind (keeps_known_of_ground keeps_platform) fun p => ?_
  refine Keeps.bind (keeps_known_of_ground (keeps_hook h p _)) fun _ => ?_
  exact keeps_known_of_ground (keeps_say h.toQuiet _ _)

omit [Firmware φ] [IsPreorder (World φ) R] [Mapping μ] in
theorem keeps_setting_of_known {x : Boot φ μ α} (hx : Keeps (Along R known) x) :
    Keeps (Along R setting) x := hx.mono fun _ _ h => ⟨h.1, setting_of_known h.2⟩

theorem keeps_copyPayloads_setting (h : Patient R) :
    Keeps (Along R setting) (copyPayloads : Boot φ μ Unit) := by
  refine Keeps.bind (keeps_setting_of_known (keeps_clear_known h _)) fun _ => ?_
  refine Keeps.bind Keeps.get fun s => ?_
  refine Keeps.bind (keeps_setting_of_known (keeps_known_of_ground (keeps_writes h _))) fun _ => ?_
  refine Keeps.bind (keeps_setting_of_known (keeps_place_known h.toQuiet _)) fun entry => ?_
  refine Keeps.bind (Keeps.modify fun s => ⟨refl_of R s.world, rfl⟩) fun _ => ?_
  split
  · exact keeps_setting_of_known (keeps_placeKernel_known h _)
  · exact Keeps.pure ()

omit [Mapping μ]

/-! ## Finding the platform -/

/-- The configuration, without its kernel if that holds no byte. -/
def Admits (c c' : BootConfig) : Prop :=
  c' = c ∨ c.kernelIsEmpty = true ∧ c' = { c with kernel := none }

omit [IsPreorder (World φ) R] in
theorem admitPayloads_cases (h : ∀ (w : World φ) line, R w (w.say line)) (s : Session φ μ) :
    (∃ cause, admitPayloads s = .error (.config cause) s) ∨
    (s.config.kernelIsEmpty = false ∧ admitPayloads s = .ok () s) ∨
    (s.config.kernelIsEmpty = true ∧ ∃ w, R s.world w ∧ admitPayloads s =
        .ok () { s with world := w, config := { s.config with kernel := none } }) := by
  obtain ⟨world, memory, ⟨platform, hypervisor, kernel, policy, dump⟩, state, context, buffer⟩ := s
  simp only [admitPayloads, get_bind]
  cases hypervisor.isEmpty with
  | true => exact .inl ⟨_, rfl⟩
  | false =>
    cases hkernel : BootConfig.kernelIsEmpty ⟨platform, hypervisor, kernel, policy, dump⟩ with
    | false => exact .inr (.inl ⟨rfl, rfl⟩)
    | true =>
      cases policy with
      | require => exact .inl ⟨_, rfl⟩
      | skip => exact .inr (.inr ⟨rfl, _, h world _, rfl⟩)

omit [Firmware φ] [IsPreorder (World φ) R] in
theorem platform_of_some {s : Session φ μ} {p : Platform} (h : s.context.platform = some p) :
    platform s = .ok p s := by
  rw [platform, get_bind, h]
  rfl

omit [Firmware φ] [IsPreorder (World φ) R] in
theorem platform_of_none {s : Session φ μ} (h : s.context.platform = none) :
    platform s = .error (.outOfOrder s.state) s := by
  rw [platform, get_bind, h]
  rfl

omit [Firmware φ] [IsPreorder (World φ) R] in
theorem checkPlacement_cases {s : Session φ μ} {p : Platform} (h : s.context.platform = some p) :
    (s.config.checkPlacement p s.context.loaderImage = .ok () ∧ checkPlacement s = .ok () s) ∨
      ∃ cause, checkPlacement s = .error (.config cause) s := by
  unfold checkPlacement
  rw [bind_of_ok (platform_of_some h), get_bind]
  cases s.config.checkPlacement p s.context.loaderImage with
  | ok _ => exact .inl ⟨rfl, rfl⟩
  | error e => exact .inr ⟨_, rfl⟩

theorem settle_cases (h : ∀ (w : World φ) line, R w (w.say line)) {s : Session φ μ} {p : Platform}
    (hp : s.context.platform = some p) :
    ∃ w c, R s.world w ∧ Admits s.config c ∧
      ((c.kernelIsEmpty = false ∧ c.checkPlacement p s.context.loaderImage = .ok () ∧
          (admitPayloads >>= fun _ => checkPlacement) s =
            .ok () { s with world := w, config := c }) ∨
        ∃ cause, (admitPayloads >>= fun _ => checkPlacement) s =
          .error (.config cause) { s with world := w, config := c }) := by
  rcases admitPayloads_cases h s with
    ⟨cause, hadmitted⟩ | ⟨hkernel, hadmitted⟩ | ⟨hkernel, w, hw, hadmitted⟩
  · exact ⟨s.world, s.config, refl_of R s.world, .inl rfl, .inr ⟨_, bind_of_error hadmitted⟩⟩
  · refine ⟨s.world, s.config, refl_of R s.world, .inl rfl, ?_⟩
    rw [bind_of_ok hadmitted]
    exact (checkPlacement_cases hp).imp_left fun h => ⟨hkernel, h⟩
  · refine ⟨w, _, hw, .inr ⟨hkernel, rfl⟩, ?_⟩
    rw [bind_of_ok hadmitted]
    exact (checkPlacement_cases
      (s := { s with world := w, config := { s.config with kernel := none } }) hp).imp_left
        fun h => ⟨rfl, h⟩

def found (c : BootContext) (p : Platform) (f : φ) : BootContext :=
  { c with
    platform := some p
    loaderImage := Firmware.loaderImage f
    systemTable := Firmware.systemTable f }

omit [IsPreorder (World φ) R] in
theorem detect_of_publish {s : Session φ μ} {p : Platform} {f : World φ}
    (hp : s.config.platform = some p)
    (hpublish : inWorld .ofPlatform (Host.publish p) s = .ok () { s with world := f }) :
    ∃ line, detect s = (admitPayloads >>= fun _ => checkPlacement)
      { s with world := f.say line, context := found s.context p f.firmware } := by
  unfold detect
  rw [get_bind, hp]
  exact ⟨_, bind_of_ok hpublish⟩

omit [IsPreorder (World φ) R] in
theorem detect_of_unpublished {s : Session φ μ} {p : Platform} {e : PlatformError} {f : World φ}
    (hp : s.config.platform = some p) (hpublish : Host.publish p s.world = .error e f) :
    detect s = .error (.ofPlatform e) { s with world := f } := by
  unfold detect
  rw [get_bind, hp]
  exact bind_of_error (inWorld_of_error hpublish)

/-- The first state stops before it settles anything, or else it settles the platform, the place of
the loader as the firmware gives it, and what to boot; if it succeeds, the payloads are in order. -/
theorem detect_cases (h : Quiet R) (s : Session φ μ) :
    (∃ e w, R s.world w ∧ detect s = .error e { s with world := w }) ∨
    ∃ p f w c, s.config.platform = some p ∧ R s.world f ∧ R s.world w ∧ Admits s.config c ∧
      ((c.kernelIsEmpty = false ∧ c.checkPlacement p (Firmware.loaderImage f.firmware) = .ok () ∧
          detect s =
            .ok () { s with world := w, config := c, context := found s.context p f.firmware }) ∨
        ∃ e, detect s =
          .error e { s with world := w, config := c, context := found s.context p f.firmware }) := by
  cases hp : s.config.platform with
  | none =>
    refine .inl ⟨.config .unsupportedArch, s.world, refl_of R s.world, ?_⟩
    rw [detect, get_bind, hp]
    rfl
  | some p =>
    rcases inWorld_cases (Host.keeps_publish h p) s with ⟨f, hf, ⟨_, hpublish⟩ | ⟨e, hpublish⟩⟩
    · obtain ⟨line, hdetect⟩ := detect_of_publish hp hpublish
      obtain ⟨w, c, hw, hadmitteds, hsettled⟩ := settle_cases h.say
        (s := { s with world := f.say line, context := found s.context p f.firmware }) rfl
      rw [hdetect]
      exact .inr ⟨p, f, w, c, rfl, hf, trans_of R (trans_of R hf (h.say f line)) hw, hadmitteds,
        hsettled.imp_right fun ⟨_, herror⟩ => ⟨_, herror⟩⟩
    · refine .inl ⟨e, f, hf, ?_⟩
      rw [detect, get_bind, hp]
      exact bind_of_error hpublish

/-! ## The state -/

omit [Firmware φ] [IsPreorder (World φ) R] in
theorem keeps_state_of_setting {x : Boot φ μ α} (hx : Keeps (Along R setting) x) :
    Keeps (Along R Session.state) x := hx.mono fun _ _ h => ⟨h.1, congrArg Setting.state h.2⟩

omit [Firmware φ] [IsPreorder (World φ) R] in
theorem keeps_state_of_ground {x : Boot φ μ α} (hx : Keeps (Along R ground) x) :
    Keeps (Along R Session.state) x :=
  keeps_state_of_setting (keeps_setting_of_known (keeps_known_of_ground hx))

theorem keeps_detect (h : Quiet R) :
    Keeps (Along R fun s => (s.state, s.memory)) (detect : Boot φ μ Unit) := by
  intro s
  rcases detect_cases h s with
    ⟨e, w, hw, hdetect⟩ | ⟨p, f, w, c, -, -, hw, -, ⟨-, -, hdetect⟩ | ⟨e, hdetect⟩⟩
  all_goals
    rw [hdetect]
    exact ⟨hw, rfl⟩

theorem keeps_detect_state (h : Quiet R) : Keeps (Along R Session.state) (detect : Boot φ μ Unit) :=
  (keeps_detect h).mono fun _ _ h => ⟨h.1, congrArg Prod.fst h.2⟩

end Boot

end BootLoader
