import BootLoader.Proofs.Handoff.Beside
import BootLoader.Proofs.Handoff.Diagnostics
import BootLoader.Proofs.Handoff.Integrity
import BootLoader.Proofs.Pe.Load

/-! A boot with a kernel and the same boot without. The kernel may stop a boot: it may be refused,
or meet the loader, the hypervisor or a clear. But where both come to the transfer, they have made
the same calls and hand over the same, and their memories differ inside the footprint of the kernel
alone. Up to the copies the two are in step and differ in their configuration only; from then on
they differ in what the kernel leaves behind. -/

namespace BootLoader

variable {φ ψ ε α : Type}

/-! ## Calls -/

/-- A call to the firmware or a hook, not the mark of a write phase. -/
def Event.isCall : Event → Bool
  | .writes _ => false
  | _ => true

/-- The calls that were made, to the firmware with its answers and to the hooks, newest first. -/
def Machine.made (m : Machine) : List Event := m.trail.filter Event.isCall

namespace World

def unwritten (w : World φ) : World φ :=
  { w with machine := { w.machine with trail := w.machine.made } }

variable {w w' : World φ}

theorem takeReply_unwritten {p : Platform} {k : Hook} (h : Host.takeReply p k w = .ok () w') :
    Host.takeReply p k w.unwritten = .ok () w'.unwritten := by
  have hdevice : w.unwritten.machine.device p = w.machine.device p := rfl
  rw [Host.takeReply_apply] at h ⊢
  rw [hdevice]
  rcases hreply : (w.machine.device p).reply k with ⟨_ | e, d⟩ <;> rw [hreply] at h <;> cases h
  rfl

theorem native_unwritten {arch : Arch} (h : Host.native arch w = .ok () w') :
    Host.native arch w.unwritten = .ok () w'.unwritten := by
  have hnative : (Host.ofExcept (Platform.native w.machine.target arch) : Host φ _ Unit) w =
      .ok () w' := h
  change (Host.ofExcept (Platform.native w.machine.target arch) : Host φ _ Unit) w.unwritten = _
  cases hreach : Platform.native w.machine.target arch <;> rw [hreach] at hnative <;> cases hnative
  rfl

/-- Nothing that a hook does depends on the trail. -/
theorem plainHook_unwritten {p : Platform} {k : Hook} (h : Host.plainHook p k w = .ok () w') :
    Host.plainHook p k w.unwritten = .ok () w'.unwritten := by
  unfold Host.plainHook at h ⊢
  rw [Host.record, Host.onMachine, modify_bind] at h ⊢
  cases hwiring : p.wiring with
  | hardware =>
    rw [hwiring] at h
    dsimp only at h ⊢
    cases hneeds : Platform.needsHardware p.arch k with
    | true =>
      rw [hneeds] at h
      exact native_unwritten h
    | false =>
      rw [hneeds] at h
      cases h
      rfl
  | scripted =>
    rw [hwiring] at h
    exact takeReply_unwritten h

end World

/-! ## Apart from the kernel -/

def BootConfig.alone (c : BootConfig) : BootConfig := { c with kernel := none }

namespace BootConfig

variable (c : BootConfig)

@[simp] theorem alone_kernel : c.alone.kernel = none := rfl

@[simp] theorem alone_kernelIsEmpty : c.alone.kernelIsEmpty = false := rfl

@[simp] theorem alone_hypervisor : c.alone.hypervisor = c.hypervisor := rfl

@[simp] theorem alone_platform : c.alone.platform = c.platform := rfl

end BootConfig

def BootContext.alone (c : BootContext) : BootContext := { c with kernelEntry := none }

def Session.alone {μ : Type} (s : Session φ μ) : Session φ μ := { s with config := s.config.alone }

/-- The second boot is the first but for what was said, the marks of write phases, the kernel's
entry and the bytes at `P`. -/
structure Aside (look : φ → ψ) (P : Nat → Prop) (s t : Session φ Memory) : Prop where
  world : (t.world.mute look).unwritten = (s.world.mute look).unwritten
  memory : s.memory.Orderly → s.memory.AgreesOff P t.memory
  config : t.config = s.config
  state : t.state = s.state
  context : t.context.alone = s.context.alone

variable {look : φ → ψ} {P : Nat → Prop} {kernel : Payload} {s t s' t' : Session φ Memory}

instance : IsPreorder (Session φ Memory) (Aside look P) where
  refl s := ⟨rfl, fun _ => .refl s.memory, rfl, rfl, rfl⟩
  trans s t u h h' := by
    refine ⟨h'.world.trans h.world, fun hm => ?_, h'.config.trans h.config, h'.state.trans h.state,
      h'.context.trans h.context⟩
    exact (h.memory hm).trans (h'.memory (hm.of_extents (h.memory hm).extents))

/-- Two boots before the copies: they differ in whether there is a kernel. -/
structure InStep (look : φ → ψ) (kernel : Payload) (s t : Session φ Memory) : Prop where
  view : s.alone.mute look = t.alone.mute look
  orderly : s.memory.Orderly
  config : t.config = s.config.alone
  kernel : ∀ k, s.config.kernel = some k → k = kernel

/-- Two boots from the copies on: they differ in what a kernel leaves behind. -/
structure Abreast (look : φ → ψ) (kernel : Payload) (s t : Session φ Memory) : Prop where
  world : (s.world.mute look).unwritten = (t.world.mute look).unwritten
  orderly : s.memory.Orderly
  memory : s.memory.AgreesOff kernel.footprint.Holds t.memory
  config : t.config = s.config.alone
  kernel : ∀ k, s.config.kernel = some k → k = kernel
  state : s.state = t.state
  context : s.context.alone = t.context.alone

theorem InStep.abreast (h : InStep look kernel s t) : Abreast look kernel s t := by
  obtain ⟨hworld, hmemory, -, hstate, hcontext, -⟩ := Boot.parts_of_mute h.view
  change s.memory = t.memory at hmemory
  refine ⟨congrArg World.unwritten hworld, h.orderly, ?_, h.config, h.kernel, hstate,
    congrArg BootContext.alone hcontext⟩
  rw [← hmemory]
  exact .refl s.memory

theorem Abreast.aside (h : Abreast look kernel s t) (hs : Aside look kernel.footprint.Holds s s')
    (ht : Aside look kernel.footprint.Holds t t') : Abreast look kernel s' t' := by
  have hkept := hs.memory h.orderly
  have hother := ht.memory (h.orderly.of_extents h.memory.extents)
  refine ⟨hs.world.trans (h.world.trans ht.world.symm), h.orderly.of_extents hkept.extents,
    hkept.symm.trans (h.memory.trans hother), ?_, ?_, hs.state.trans (h.state.trans ht.state.symm),
    hs.context.trans (h.context.trans ht.context.symm)⟩
  · rw [ht.config, h.config, hs.config]
  · rw [hs.config]
    exact h.kernel

namespace Boot

theorem reveals_alone {μ : Type} :
    Reveals look (fun s : Session φ μ => s.alone.mute look) where
  world s t := reveals_mute.world s.alone t.alone
  state s t := reveals_mute.state s.alone t.alone
  context s t := reveals_mute.context s.alone t.alone
  mapBuffer s t := reveals_mute.mapBuffer s.alone t.alone
  withWorld s t w w' h hw := reveals_mute.withWorld s.alone t.alone w w' h hw
  withContext s t f h := reveals_mute.withContext s.alone t.alone f h
  withBuffer s t b h := reveals_mute.withBuffer s.alone t.alone b h

/-! ## Before the copies -/

abbrev Leaves : Session φ Memory → Session φ Memory → Prop := Same fun s => (s.config, s.memory)

theorem leaves_inWorld {wrap : ε → BootError} {x : Host φ ε α} :
    Keeps Leaves (inWorld wrap x : Boot φ Memory α) := by
  intro s
  unfold inWorld
  cases x s.world <;> rfl

/-- What does the same whatever the kernel keeps two boots in step. -/
theorem concur_inStep {x y : Boot φ Memory α}
    (h : Twins (fun s : Session φ Memory => s.alone.mute look) BootError.Fatal x y)
    (hx : Keeps Leaves x) (hy : Keeps Leaves y) :
    Concur (InStep look kernel) (InStep look kernel) x y := by
  intro s t hst a b s' t' hs ht
  obtain ⟨rfl, hview⟩ := Concur.of_twins h s t hst.view a b s' t' hs ht
  have hleft : (s'.config, s'.memory) = (s.config, s.memory) := hx.of_ok hs
  have hright : (t'.config, t'.memory) = (t.config, t.memory) := hy.of_ok ht
  have hconfig : s'.config = s.config := congrArg Prod.fst hleft
  have hmemory : s'.memory = s.memory := congrArg Prod.snd hleft
  have hother : t'.config = t.config := congrArg Prod.fst hright
  refine ⟨rfl, hview, hmemory ▸ hst.orderly, ?_, hconfig ▸ hst.kernel⟩
  rw [hother, hst.config, hconfig]

theorem keeps_id_platform : Keeps (Same id) (platform : Boot φ Memory Platform) := by
  unfold platform
  refine Keeps.bind Keeps.get fun s => ?_
  split
  · exact Keeps.pure _
  · exact Keeps.throw _

theorem keeps_id_checkPlacement : Keeps (Same id) (checkPlacement : Boot φ Memory Unit) := by
  unfold checkPlacement
  refine Keeps.bind keeps_id_platform fun p => Keeps.bind Keeps.get fun s => ?_
  split
  · exact Keeps.pure ()
  · exact Keeps.throw _

/-- Where both placements are admitted, that leaves the boots as they are. -/
theorem concur_checkPlacement :
    Concur (InStep look kernel) (InStep look kernel) checkPlacement checkPlacement := by
  intro s t hst _ _ s' t' hs ht
  have hleft : s' = s := keeps_id_checkPlacement.of_ok hs
  have hright : t' = t := keeps_id_checkPlacement.of_ok ht
  rw [hleft, hright]
  exact ⟨rfl, hst⟩

variable [Firmware φ]

theorem leaves_say (level : Level) (text : String) :
    Keeps Leaves (say level text : Boot φ Memory Unit) := Keeps.modify fun _ => rfl

/-- A kernel without bytes is dropped, which makes the first boot like the second. -/
theorem concur_admitPayloads (hlook : Deaf look) :
    Concur (InStep look kernel) (InStep look kernel) admitPayloads admitPayloads := by
  unfold admitPayloads
  refine Concur.get_bind fun s t hst => ?_
  have hempty : t.config.kernelIsEmpty = false := by simp [hst.config]
  have hhypervisor : t.config.hypervisor = s.config.hypervisor := by simp [hst.config]
  dsimp only
  rw [hempty, hhypervisor]
  cases s.config.hypervisor.isEmpty with
  | true => exact Concur.throw_left _ _
  | false =>
    cases s.config.kernelIsEmpty with
    | false => exact Concur.pure ()
    | true =>
      cases s.config.kernelPolicy with
      | require => exact Concur.throw_left _ _
      | skip =>
        -- only the first boot says anything, and from here on neither has a kernel
        rintro s t hst _ _ _ _ ⟨⟩ ⟨⟩
        refine ⟨rfl, ?_, hst.orderly, ?_, nofun⟩
        · exact (reveals_alone.withWorld s s _ _ rfl (s.world.mute_say hlook _)).trans hst.view
        · exact hst.config

theorem concur_detect (hlook : Deaf look) :
    Concur (InStep look kernel) (InStep look kernel) detect detect := by
  unfold detect
  refine Concur.get_bind fun s t hst => ?_
  have hplatform : t.config.platform = s.config.platform := by simp [hst.config]
  rw [hplatform]
  cases s.config.platform with
  | none => exact Concur.throw_left _ _
  | some p =>
    refine Concur.bind (concur_inStep (twins_inWorld reveals_alone BootError.fatal_ofPlatform
      (Host.matched_publish hlook p)) leaves_inWorld leaves_inWorld) fun _ => ?_
    refine Concur.bind (concur_inStep (Twins.modify fun _ _ h => mute_found hlook h p)
      (Keeps.modify fun _ => rfl) (Keeps.modify fun _ => rfl)) fun _ => ?_
    refine Concur.get_bind fun _ _ _ => ?_
    refine Concur.bind (concur_inStep (twins_say reveals_alone hlook _ _ _ _)
      (leaves_say _ _) (leaves_say _ _)) fun _ => ?_
    exact Concur.bind (concur_admitPayloads hlook) fun _ => concur_checkPlacement

theorem leaves_action {state : BootState} (h : state.isQuiet = true) :
    Keeps Leaves (action state : Boot φ Memory Unit) :=
  (keeps_action (μ := Memory) (lenient_blind (φ := φ)) h).mono fun _ _ h =>
    Prod.ext (congrArg Setting.config (Session.setting_of_ground h.2)) (Session.memory_of_ground h.2)

/-- Before the copies, no state tells the boots apart. -/
theorem concur_action_inStep (hlook : Deaf look) {state : BootState}
    (h : state = .detect ∨ state.isQuiet = true) :
    Concur (InStep look kernel) (InStep look kernel) (action state) (action state) := by
  rcases h with rfl | h
  · exact concur_detect hlook
  · exact concur_inStep (twins_action reveals_alone hlook h) (leaves_action h) (leaves_action h)

/-! ## From the copies on -/

omit [Firmware φ] in
theorem aside_writes (phase : WritePhase) :
    Keeps (Aside look P) (record (.writes phase) : Boot φ Memory Unit) :=
  Keeps.modify fun s => ⟨rfl, fun _ => .refl s.memory, rfl, rfl, rfl⟩

theorem aside_say (hlook : Deaf look) (level : Level) (text : String) :
    Keeps (Aside look P) (say level text : Boot φ Memory Unit) := Keeps.modify fun s =>
  ⟨congrArg World.unwritten (s.world.mute_say hlook _), fun _ => .refl s.memory, rfl, rfl, rfl⟩

theorem aside_inMemory (hlook : Deaf look) {wrap : ε → BootError} {x : Task Memory ε α}
    (h : ∀ m : Memory, m.Orderly → m.AgreesOff P (x.run m).2) :
    Keeps (Aside look P) (inMemory wrap x : Boot φ Memory α) := by
  intro s
  have hworld := congrArg World.unwritten
    (s.world.mute_sayAll hlook (x.run s.memory).1.lines)
  unfold inMemory
  dsimp only
  cases (x.run s.memory).1.result <;> exact ⟨hworld, h s.memory, rfl, rfl, rfl⟩

theorem aside_place (hlook : Deaf look) (p : Payload) :
    Keeps (Aside look p.footprint.Holds) (place p : Boot φ Memory Address) := by
  refine Keeps.bind (aside_say hlook _ _) fun _ => ?_
  cases hformat : p.format with
  | raw =>
    exact Keeps.bind (aside_inMemory hlook fun m _ => run_copy_agreesOff hformat m) fun _ => Keeps.pure _
  | pe =>
    exact Keeps.bind (aside_inMemory hlook fun m hm => run_load_agreesOff hformat hm) fun _ =>
      Keeps.pure _

/-- However far its placement gets, a kernel leaves nothing but its entry and bytes of its
footprint. -/
theorem aside_placeKernel (hlook : Deaf look) (kernel : Payload) :
    Keeps (Aside look kernel.footprint.Holds) (placeKernel kernel : Boot φ Memory Unit) := by
  refine Keeps.bind (aside_writes _) fun _ => ?_
  refine Keeps.bind (keeps_attempt (aside_place hlook kernel)) fun placed => ?_
  cases placed with
  | ok entry => exact Keeps.modify fun s => ⟨rfl, fun _ => .refl s.memory, rfl, rfl, rfl⟩
  | error e =>
    refine Keeps.bind Keeps.get fun s => ?_
    split
    · exact aside_say hlook _ _
    · exact Keeps.throw e

omit [Firmware φ] in
theorem concur_aside {x y : Boot φ Memory Unit} (hx : Keeps (Aside look kernel.footprint.Holds) x)
    (hy : Keeps (Aside look kernel.footprint.Holds) y) :
    Concur (Abreast look kernel) (Abreast look kernel) x y := fun _ _ hst _ _ _ _ hs ht =>
  ⟨rfl, hst.aside (hx.of_ok hs) (hy.of_ok ht)⟩

theorem concur_say (hlook : Deaf look) (level level' : Level) (text text' : String) :
    Concur (Abreast look kernel) (Abreast look kernel) (say level text : Boot φ Memory Unit)
      (say level' text') :=
  concur_aside (aside_say hlook level text) (aside_say hlook level' text')

omit [Firmware φ] in
theorem concur_onContext {f : BootContext → BootContext} (hf : ∀ c, (f c).alone = f c.alone) :
    Concur (Abreast look kernel) (Abreast look kernel) (onContext f : Boot φ Memory Unit)
      (onContext f) := by
  refine Concur.modify fun s t h => ?_
  have hcontext : (f s.context).alone = (f t.context).alone := by
    rw [hf, hf, h.context]
  exact ⟨h.world, h.orderly, h.memory, h.config, h.kernel, h.state, hcontext⟩

omit [Firmware φ] in
theorem concur_platform :
    Concur (Abreast look kernel) (Abreast look kernel) (platform : Boot φ Memory Platform) platform := by
  intro s t hst p q s' t' hs ht
  have hsame := congrArg BootContext.platform hst.context
  change s.context.platform = t.context.platform at hsame
  cases hp : s.context.platform with
  | none =>
    rw [platform_of_none hp] at hs
    cases hs
  | some r =>
    rw [platform_of_some hp] at hs
    rw [platform_of_some (hsame ▸ hp)] at ht
    cases hs
    cases ht
    exact ⟨rfl, hst⟩

theorem inMemory_ok_session {wrap : ε → BootError} {x : Task Memory ε α} {a : α}
    (h : inMemory wrap x s = .ok a s') :
    ∃ lines u, x ⟨[], s.memory⟩ = .ok a u ∧
      s' = { s with world := s.world.sayAll lines, memory := u.state } := by
  obtain ⟨hresult, -⟩ := inMemory_eq_ok h
  obtain ⟨u, hx, hstate⟩ := Task.run_eq_ok.mp hresult
  unfold inMemory at h
  dsimp only at h
  rw [hresult, hstate] at h
  cases h
  exact ⟨_, u, hx, rfl⟩

theorem concur_inMemory (hlook : Deaf look) {wrap : ε → BootError} {x y : Task Memory ε α}
    (h : Concur (Told.Beside kernel.footprint.Holds) (Told.Beside kernel.footprint.Holds) x y) :
    Concur (Abreast look kernel) (Abreast look kernel) (inMemory wrap x : Boot φ Memory α)
      (inMemory wrap y) := by
  intro s t hst a b s' t' hs ht
  obtain ⟨lines, u, hx, rfl⟩ := inMemory_ok_session hs
  obtain ⟨lines', v, hy, rfl⟩ := inMemory_ok_session ht
  obtain ⟨rfl, hbeside⟩ := h _ _ ⟨hst.orderly, hst.memory⟩ a b u v hx hy
  refine ⟨rfl, ?_, hbeside.orderly, hbeside.agrees, hst.config, hst.kernel, hst.state, hst.context⟩
  rw [World.mute_sayAll hlook, World.mute_sayAll hlook]
  exact hst.world

omit [Firmware φ] in
theorem concur_hook (p : Platform) (k : Hook) :
    Concur (Abreast look kernel) (Abreast look kernel) (hook p k : Boot φ Memory Unit) (hook p k) := by
  intro s t hst _ _ s' t' hs ht
  unfold hook inWorld at hs ht
  cases hx : Host.plainHook p k s.world with
  | error e w =>
    rw [hx] at hs
    cases hs
  | ok _ w =>
    cases hy : Host.plainHook p k t.world with
    | error e v =>
      rw [hy] at ht
      cases ht
    | ok _ v =>
      rw [hx] at hs
      rw [hy] at ht
      cases hs
      cases ht
      have halike := Host.matched_plainHook p k s.world.unwritten t.world.unwritten hst.world
      rw [World.plainHook_unwritten hx, World.plainHook_unwritten hy] at halike
      cases halike with
      | ok _ hworld =>
        exact ⟨rfl, hworld, hst.orderly, hst.memory, hst.config, hst.kernel, hst.state, hst.context⟩

theorem concur_clear (hlook : Deaf look) (phase : ClearPhase) :
    Concur (Abreast look kernel) (Abreast look kernel) (clear phase : Boot φ Memory Unit)
      (clear phase) := by
  refine Concur.bind concur_platform fun p => Concur.get_bind fun s t hst => ?_
  refine Concur.bind (concur_aside (aside_writes _) (aside_writes _)) fun _ => ?_
  refine Concur.bind (concur_inMemory hlook (p.concur_clear phase _ _)) fun cleared => ?_
  exact concur_onContext fun _ => rfl

theorem concur_place (hlook : Deaf look) (p : Payload) :
    Concur (Abreast look kernel) (Abreast look kernel) (place p : Boot φ Memory Address) (place p) := by
  refine Concur.bind (concur_say hlook _ _ _ _) fun _ => ?_
  split
  · exact Concur.bind (concur_inMemory hlook (Task.concur_copy _ _ _)) fun _ => Concur.pure _
  · exact Concur.bind (concur_inMemory hlook (Pe.concur_load _ _)) fun l => Concur.pure l.entry

theorem concur_copyPayloads (hlook : Deaf look) :
    Concur (Abreast look kernel) (Abreast look kernel) (copyPayloads : Boot φ Memory Unit)
      copyPayloads := by
  refine Concur.bind (concur_clear hlook _) fun _ => Concur.get_bind fun s t hst => ?_
  have hhypervisor : t.config.hypervisor = s.config.hypervisor := by simp [hst.config]
  have hnone : t.config.kernel = none := by simp [hst.config]
  dsimp only
  rw [hhypervisor, hnone]
  refine Concur.bind (concur_aside (aside_writes _) (aside_writes _)) fun _ => ?_
  refine Concur.bind (concur_place hlook _) fun entry => ?_
  refine Concur.bind (concur_onContext fun _ => rfl) fun _ => ?_
  cases hkernel : s.config.kernel with
  | none => exact Concur.pure ()
  | some k =>
    -- the second boot is done here, while the first may leave bytes and an entry
    rw [hst.kernel k hkernel]
    exact concur_aside (aside_placeKernel hlook kernel) (Keeps.pure ())

theorem concur_preJumpFixup (hlook : Deaf look) :
    Concur (Abreast look kernel) (Abreast look kernel) (preJumpFixup : Boot φ Memory Unit)
      preJumpFixup := by
  refine Concur.bind (concur_clear hlook _) fun _ => ?_
  refine Concur.bind concur_platform fun p => ?_
  exact Concur.bind (concur_hook p _) fun _ => concur_say hlook _ _ _ _

end Boot

/-! ## Step by step -/

theorem BootState.isQuiet_of_early {state : BootState} (hearly : state.isLate = false)
    (hcopies : state ≠ .copyPayloads) :
    (state = .detect ∨ state.isQuiet = true) ∧ state.next.isLate = false := by
  revert hearly hcopies
  cases state <;> decide

theorem InStep.withState (h : InStep look kernel s t) (state : BootState) :
    InStep look kernel { s with state := state } { t with state := state } :=
  ⟨congrArg (fun u : Session ψ Memory => { u with state := state }) h.view, h.orderly, h.config,
    h.kernel⟩

theorem Abreast.withState (h : Abreast look kernel s t) (state : BootState) :
    Abreast look kernel { s with state := state } { t with state := state } :=
  ⟨h.world, h.orderly, h.memory, h.config, h.kernel, rfl, h.context⟩

inductive Together (look : φ → ψ) (kernel : Payload) (s t : Session φ Memory) : Prop
  | before (h : InStep look kernel s t) (hs : s.state.isLate = false)
  | after (h : Abreast look kernel s t) (hs : s.state.isLate = true)

theorem Together.state (h : Together look kernel s t) : s.state = t.state := by
  cases h with
  | before h _ => exact Boot.reveals_alone.state s t h.view
  | after h _ => exact h.state

theorem Session.together_start (world : World φ) {memory : Memory} (hm : memory.Orderly)
    {config : BootConfig} (hkernel : config.kernel = some kernel) :
    Together look kernel (start world memory config) (start world memory config.alone) := by
  refine .before ⟨rfl, hm, rfl, fun k hk => ?_⟩ rfl
  exact Option.some.inj (hk.symm.trans hkernel)

variable [Firmware φ]

theorem InStep.announced (hlook : Deaf look) (h : InStep look kernel s t) :
    InStep look kernel s.announced t.announced := by
  refine ⟨?_, h.orderly, h.config, h.kernel⟩
  refine Boot.reveals_alone.withWorld s t _ _ h.view ?_
  rw [s.world.mute_say hlook, t.world.mute_say hlook]
  exact Boot.reveals_alone.world s t h.view

theorem Abreast.announced (hlook : Deaf look) (h : Abreast look kernel s t) :
    Abreast look kernel s.announced t.announced :=
  h.aside (Boot.aside_say hlook _ _ s) (Boot.aside_say hlook _ _ t)

namespace Together

theorem step (hlook : Deaf look) (h : Together look kernel s t) {a b : BootState}
    (hs : Boot.step s = .ok a s') (ht : Boot.step t = .ok b t') : Together look kernel s' t' := by
  obtain ⟨u, hu, rfl⟩ := Boot.action_of_step_ok hs
  obtain ⟨v, hv, rfl⟩ := Boot.action_of_step_ok ht
  rw [← h.state] at hv ⊢
  cases h with
  | before h hearly =>
    by_cases hcopies : s.state = .copyPayloads
    · -- boots in step are abreast as well, which is all that the copies leave them
      rw [hcopies] at hu hv ⊢
      obtain ⟨-, hnext⟩ := Boot.concur_copyPayloads hlook _ _ (h.announced hlook).abreast _ _ u v hu hv
      exact .after (hnext.withState _) rfl
    · obtain ⟨hquiet, hstill⟩ := BootState.isQuiet_of_early hearly hcopies
      obtain ⟨-, hnext⟩ := Boot.concur_action_inStep hlook hquiet _ _ (h.announced hlook) _ _ u v hu hv
      exact .before (hnext.withState _) hstill
  | after h hlate =>
    cases hstate : s.state with
    | archPreJumpFixup =>
      rw [hstate] at hu hv
      obtain ⟨-, hnext⟩ := Boot.concur_preJumpFixup hlook _ _ (h.announced hlook) _ _ u v hu hv
      exact .after (hnext.withState _) rfl
    | transfer =>
      rw [hstate] at hu
      cases hu
    | _ =>
      rw [hstate] at hlate
      cases hlate

theorem steps (hlook : Deaf look) {n : Nat} (h : Together look kernel s t)
    (hs : Boot.steps n s = .ok () s') (ht : Boot.steps n t = .ok () t') :
    Together look kernel s' t' := by
  induction n generalizing s t with
  | zero =>
    cases hs
    cases ht
    exact h
  | succ n ih =>
    by_cases htransfer : s.state = .transfer
    · rw [Boot.steps_at_transfer htransfer] at hs
      rw [Boot.steps_at_transfer (h.state ▸ htransfer)] at ht
      cases hs
      cases ht
      exact h
    · rw [Boot.steps_succ htransfer] at hs
      rw [Boot.steps_succ (h.state ▸ htransfer)] at ht
      obtain ⟨a, u, hu, hs⟩ := bind_eq_ok.mp hs
      obtain ⟨b, v, hv, ht⟩ := bind_eq_ok.mp ht
      exact ih (h.step hlook hu hv) hs ht

end Together

namespace Session

/-- The kernel has no say in how the hypervisor is entered, over any firmware that does not listen
to its console. If a boot with a kernel and the same boot without one both come to the transfer,
they have made the same calls, with the same answers, they hand over the same, and their memories
differ in the footprint of the kernel at most: even where the kernel was given up half-way. -/
theorem handoff_unaltered {world : World φ} {memory : Memory} {config : BootConfig} {kernel : Payload}
    {s t : Session φ Memory} {look : φ → ψ} (hlook : Deaf look) (hm : memory.Orderly)
    (hkernel : config.kernel = some kernel)
    (hs : Boot.runUntilTransfer (start world memory config) = .ok () s)
    (ht : Boot.runUntilTransfer (start world memory config.alone) = .ok () t) :
    s.context.entry = t.context.entry ∧ s.context.handoffParams = t.context.handoffParams ∧
      s.context.memoryMap = t.context.memoryMap ∧ s.context.bytesCleared = t.context.bytesCleared ∧
      s.world.machine.made = t.world.machine.made ∧
      s.memory.AgreesOff kernel.footprint.Holds t.memory := by
  obtain ⟨_, -, htransfer⟩ := Boot.runUntilTransfer_eq_ok hs
  have htogether := (together_start world hm hkernel).steps hlook hs ht
  cases htogether with
  | before _ hearly =>
    rw [htransfer] at hearly
    cases hearly
  | after h _ =>
    have hentry := congrArg BootContext.entry h.context
    have hparams := congrArg BootContext.handoffParams h.context
    have hmap := congrArg BootContext.memoryMap h.context
    have hcleared := congrArg BootContext.bytesCleared h.context
    have hmade := congrArg (fun w => w.machine.trail) h.world
    exact ⟨hentry, hparams, hmap, hcleared, hmade, h.memory⟩

end Session

namespace Sample

/-- An image whose second section is not in the file. -/
def broken : Payload := ⟨.kernel, Pe.Sample.file 205, .ofNat 0x1018, .pe, .ofNat 0x3100⟩

def brokenConfig : BootConfig :=
  { config with
    hypervisor := ⟨.hypervisor, .ofList [1, 2], .ofNat 0x1000, .raw, .ofNat 0x3000⟩
    kernel := some broken
    kernelPolicy := .skip }

end Sample

namespace Session

/-- A kernel that is given up, but of which the first section is left. -/
theorem handoff_unaltered_sample :
    let r := Boot.runUntilTransfer (start Sample.world Sample.memory Sample.brokenConfig)
    let r' := Boot.runUntilTransfer (start Sample.world Sample.memory Sample.brokenConfig.alone)
    (failure? r = none ∧ (final r).memory.byte? 0x1028 = some 1) ∧
      (failure? r' = none ∧ (final r').memory.byte? 0x1028 = some 0) ∧
      (final r).context.entry = (final r').context.entry ∧
      (final r).context.handoffParams = (final r').context.handoffParams ∧
      (final r).context.memoryMap = (final r').context.memoryMap ∧
      (final r).context.bytesCleared = (final r').context.bytesCleared ∧
      (final r).world.machine.made = (final r').world.machine.made ∧
      (final r).memory.AgreesOff Sample.broken.footprint.Holds (final r').memory := by
  intro r r'
  have hr : failure? r = none ∧ (final r).memory.byte? 0x1028 = some 1 := by decide +kernel
  have hr' : failure? r' = none ∧ (final r').memory.byte? 0x1028 = some 0 := by decide +kernel
  obtain ⟨_, hs⟩ := eq_ok_of_failure? hr.1
  obtain ⟨_, ht⟩ := eq_ok_of_failure? hr'.1
  exact ⟨hr, hr', handoff_unaltered ScriptedFirmware.deaf Sample.orderly_memory rfl hs ht⟩

end Session

end BootLoader
