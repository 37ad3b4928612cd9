import BootLoader.Proofs.Handoff.Setting
import BootLoader.Proofs.Handoff.Step
import BootLoader.Proofs.Machine.Marks

/-! The order of a boot. Each state has its script of hooks, calls to the firmware and write phases;
it goes through it from the beginning and stops where something fails. So the marks of a whole boot
are the beginning of a single list, which only a boot without a failure gets to the end of. -/

namespace BootLoader

variable {φ μ ε α : Type}

/-- What a state does. The buffer is the one that the firmware grants; a kernel is placed if there
is one. -/
def BootState.script (buffer : Region) (kernel : Bool) : BootState → List Mark
  | .detect | .diagnosticDump => []
  | .earlyArchInit => [.hook .earlyInit]
  | .generalArchInit =>
    [.hook .init, .hook .memoryInit, .hook .setupDirectMapping, .hook .serialInit]
  | .acquireMemoryMap =>
    [.hook .beforeExit, .hook .bootCpu, .memoryMap .empty, .allocate, .granted buffer]
  | .terminateFirmwareServices => [.quiesce, .memoryMap buffer, .exit]
  | .copyPayloads =>
    [.writes .preparationClear, .writes .placeHypervisor] ++
      if kernel then [.writes .placeKernel] else []
  | .archPreJumpFixup => [.writes .cleanupClear, .hook .preJumpFixup]
  | .transfer => [.hook .transfer]

def bootOrder (buffer : Region) (kernel : Bool) : List Mark :=
  BootState.all.flatMap (·.script buffer kernel)

example (buffer : Region) : bootOrder buffer true =
    [.hook .earlyInit, .hook .init, .hook .memoryInit, .hook .setupDirectMapping, .hook .serialInit,
      .hook .beforeExit, .hook .bootCpu, .memoryMap .empty, .allocate, .granted buffer,
      .quiesce, .memoryMap buffer, .exit,
      .writes .preparationClear, .writes .placeHypervisor, .writes .placeKernel,
      .writes .cleanupClear, .hook .preJumpFixup, .hook .transfer] := rfl

def Session.marks (s : Session φ μ) : List Mark := s.world.marks

/-- There is a kernel, and it has bytes. -/
def BootConfig.bootsKernel (c : BootConfig) : Bool := c.kernel.any (!·.isEmpty)

open Session

namespace Boot

/-- A kernel is left if and only if there was one with bytes. -/
theorem Admits.bootsKernel {c c' : BootConfig} (h : Admits c c') (hkernel : c'.kernelIsEmpty = false) :
    c'.kernel.isSome = c.bootsKernel := by
  unfold BootConfig.bootsKernel
  rcases h with rfl | ⟨hempty, rfl⟩
  · unfold BootConfig.kernelIsEmpty at hkernel
    cases hk : c'.kernel with
    | none => rfl
    | some kernel =>
      rw [hk, Option.any_some] at hkernel
      rw [Option.any_some, hkernel]
      rfl
  · unfold BootConfig.kernelIsEmpty at hempty
    cases hk : c.kernel with
    | none => rfl
    | some kernel =>
      rw [hk, Option.any_some] at hempty
      rw [Option.any_some, hempty]
      rfl

theorem keeps_marks {τ : Type} {view : Session φ μ → τ} {x : Boot φ μ α}
    (hx : Keeps (Along (Same World.marks) view) x) : Keeps (Same Session.marks) x :=
  hx.mono fun _ _ h => h.1

theorem follows_inWorld {wrap : ε → BootError} {x : Host φ ε α} {s : Session φ μ}
    {script : List Mark} (hx : Follows World.marks script s.world (x s.world)) :
    Follows Session.marks script s (inWorld wrap x s) := by
  cases h : x s.world with
  | ok a w =>
    rw [h] at hx
    rw [inWorld_of_ok h]
    exact hx
  | error e w =>
    rw [h] at hx
    rw [inWorld_of_error h]
    exact hx

theorem follows_writes (phase : WritePhase) (s : Session φ μ) :
    Follows Session.marks [.writes phase] s ((record (.writes phase) : Boot φ μ Unit) s) :=
  World.marks_record s.world s.world.firmware (.writes phase)

theorem keeps_marks_platform : Keeps (Same Session.marks) (platform : Boot φ μ Platform) :=
  keeps_marks (keeps_platform (R := Same World.marks))

variable [Firmware φ]

theorem keeps_marks_say (level : Level) (text : String) :
    Keeps (Same Session.marks) (say level text : Boot φ μ Unit) :=
  keeps_marks (keeps_say quiet_marks level text)

theorem follows_hook (p : Platform) (k : Hook) (s : Session φ μ) :
    Follows Session.marks [.hook k] s (hook p k s) :=
  follows_inWorld (Host.follows_plainHook p k s.world)

theorem follows_earlyInit (s : Session φ μ) :
    Follows Session.marks [.hook .earlyInit] s (earlyInit s) :=
  Follows.same_bind keeps_marks_platform fun p t _ => follows_hook p .earlyInit t

theorem follows_generalInit (s : Session φ μ) :
    Follows Session.marks
      [.hook .init, .hook .memoryInit, .hook .setupDirectMapping, .hook .serialInit] s
      (generalInit s) := by
  refine Follows.same_bind keeps_marks_platform fun p s _ => ?_
  refine (follows_hook p .init s).cons fun _ s _ => ?_
  refine (follows_hook p .memoryInit s).cons fun _ s _ => ?_
  refine (follows_hook p .setupDirectMapping s).cons fun _ s _ => ?_
  refine (follows_hook p .serialInit s).bind_same fun _ => ?_
  refine Keeps.bind (keeps_marks (keeps_trace quiet_marks _)) fun _ => ?_
  exact Keeps.bind Keeps.get fun s => keeps_marks (keeps_sayAll quiet_marks (overview s p))

theorem follows_acquireMemoryMap (s : Session φ μ) {buffer : Region}
    (hbuffer : ∀ b t, acquireMemoryMap s = .ok () t → t.mapBuffer = some b → b.region = buffer) :
    Follows Session.marks
      [.hook .beforeExit, .hook .bootCpu, .memoryMap .empty, .allocate, .granted buffer] s
      (acquireMemoryMap s) := by
  unfold acquireMemoryMap at hbuffer ⊢
  refine Follows.same_bind keeps_marks_platform fun p s hs => ?_
  rw [bind_of_ok hs] at hbuffer
  refine (follows_inWorld (Host.follows_beforeExit p s.world)).cons fun _ s hs => ?_
  rw [bind_of_ok hs] at hbuffer
  refine (follows_inWorld (Host.follows_bootCpu p s.world)).cons fun cpu s hs => ?_
  rw [bind_of_ok hs] at hbuffer
  refine Follows.same_bind (keeps_marks_say _ _) fun _ s hs => ?_
  rw [bind_of_ok hs] at hbuffer
  refine Follows.same_bind (Keeps.modify fun _ => rfl) fun _ s hs => ?_
  rw [bind_of_ok hs] at hbuffer
  refine (follows_inWorld (Host.follows_probeAndAllocate s.world fun b w hb => ?_)).bind_same
    fun _ => Keeps.modify fun _ => rfl
  rw [bind_of_ok (inWorld_of_ok hb)] at hbuffer
  exact hbuffer b _ rfl rfl

theorem follows_terminateFirmwareServices (s : Session φ μ) {buffer : Region}
    (hbuffer : ∀ b, s.mapBuffer = some b → b.region = buffer) :
    Follows Session.marks [.quiesce, .memoryMap buffer, .exit] s (terminateFirmwareServices s) := by
  refine Follows.same_bind (keeps_marks (keeps_takeMapBuffer (R := Same World.marks)))
    fun b t ht => ?_
  have hregion : b.region = buffer := by
    apply hbuffer
    rw [takeMapBuffer_apply] at ht
    cases hb : s.mapBuffer <;> rw [hb] at ht <;> cases ht
    rfl
  rw [← hregion]
  refine Follows.same_bind (keeps_marks_say _ _) fun _ s _ => ?_
  refine (follows_inWorld (Host.follows_quiesce s.world)).cons fun _ s _ => ?_
  refine (follows_inWorld (Host.follows_fillAndExit b s.world)).bind_same fun map => ?_
  exact Keeps.bind (keeps_marks_say _ _) fun _ => Keeps.modify fun _ => rfl

variable [Mapping μ]

theorem follows_clear (phase : ClearPhase) (s : Session φ μ) :
    Follows Session.marks [.writes (.ofClear phase)] s (clear phase s) := by
  refine Follows.same_bind keeps_marks_platform fun p s _ => ?_
  refine Follows.same_bind Keeps.get fun _ s _ => ?_
  refine (follows_writes (.ofClear phase) s).bind_same fun _ => ?_
  refine Keeps.bind (keeps_marks (keeps_known_inMemory quiet_marks _ _)) fun _ => ?_
  exact Keeps.modify fun _ => rfl

theorem follows_placeKernel (kernel : Payload) (s : Session φ μ) :
    Follows Session.marks [.writes .placeKernel] s (placeKernel kernel s) := by
  refine (follows_writes .placeKernel s).bind_same fun _ => ?_
  refine Keeps.bind (keeps_attempt (keeps_marks (keeps_place_known quiet_marks kernel)))
    fun placed => ?_
  cases placed with
  | ok entry => exact Keeps.modify fun _ => rfl
  | error e =>
    refine Keeps.bind Keeps.get fun s => ?_
    split
    · exact keeps_marks_say _ _
    · exact Keeps.throw e

theorem follows_copyPayloads (s : Session φ μ) :
    Follows Session.marks (BootState.script .empty s.config.kernel.isSome .copyPayloads) s
      (copyPayloads s) := by
  have hclear := keeps_clear_known (μ := μ) (lenient_blind (φ := φ)).toPatient .preparation
  refine (follows_clear .preparation s).cons fun _ t ht => ?_
  have hconfig : t.config = s.config :=
    congrArg Setting.config (setting_of_known (hclear.of_ok ht).2)
  rw [get_bind, hconfig]
  refine (follows_writes .placeHypervisor t).cons fun _ t _ => ?_
  refine Follows.same_bind (keeps_marks (keeps_place_known quiet_marks _)) fun entry t _ => ?_
  refine Follows.same_bind (Keeps.modify fun _ => rfl) fun _ t _ => ?_
  cases s.config.kernel with
  | none => exact Follows.of_keeps (Keeps.pure ()) t
  | some kernel => exact follows_placeKernel kernel t

theorem follows_preJumpFixup (s : Session φ μ) :
    Follows Session.marks [.writes .cleanupClear, .hook .preJumpFixup] s (preJumpFixup s) := by
  refine (follows_clear .cleanup s).cons fun _ s _ => ?_
  refine Follows.same_bind keeps_marks_platform fun p s _ => ?_
  exact (follows_hook p .preJumpFixup s).bind_same fun _ => keeps_marks_say _ _

/-- Each state goes through its script as far as it gets. -/
theorem follows_action (s : Session φ μ) {buffer : Region} {kernel : Bool}
    (hstate : s.state ≠ .transfer)
    (hgranted : s.state = .acquireMemoryMap → ∀ b t, acquireMemoryMap s = .ok () t →
      t.mapBuffer = some b → b.region = buffer)
    (hreserved : s.state = .terminateFirmwareServices →
      ∀ b, s.mapBuffer = some b → b.region = buffer)
    (hkernel : s.state = .copyPayloads → s.config.kernel.isSome = kernel) :
    Follows Session.marks (s.state.script buffer kernel) s (action s.state s) := by
  cases hs : s.state with
  | detect => exact Follows.of_keeps (keeps_marks (keeps_detect_state quiet_marks)) s
  | earlyArchInit => exact follows_earlyInit s
  | generalArchInit => exact follows_generalInit s
  | diagnosticDump => exact Follows.of_keeps (keeps_marks (keeps_diagnosticDump quiet_marks)) s
  | acquireMemoryMap => exact follows_acquireMemoryMap s (hgranted hs)
  | terminateFirmwareServices => exact follows_terminateFirmwareServices s (hreserved hs)
  | copyPayloads => exact hkernel hs ▸ follows_copyPayloads s
  | archPreJumpFixup => exact follows_preJumpFixup s
  | transfer => exact absurd hs hstate

end Boot

/-! ## Step by step -/

namespace Boot

variable [Firmware φ]

theorem known_of_action [Mapping μ] {s t : Session φ μ} (hdetect : s.state ≠ .detect)
    (hcopies : s.state ≠ .copyPayloads) (h : action s.state s.announced = .ok () t) :
    t.known = s.known := by
  by_cases hquiet : s.state.isQuiet = true
  · exact known_of_ground ((keeps_action (μ := μ) lenient_blind hquiet).of_ok h).2
  · cases hs : s.state with
    | archPreJumpFixup =>
      rw [hs] at h
      exact ((keeps_preJumpFixup_known (μ := μ) (lenient_blind (φ := φ)).toPatient).of_ok h).2
    | detect => exact absurd hs hdetect
    | copyPayloads => exact absurd hs hcopies
    | _ => exact absurd (by rw [hs]; rfl) hquiet

/-- Only the first state changes the setting. -/
theorem keeps_action_setting [Mapping μ] {R : World φ → World φ → Prop} [IsPreorder (World φ) R]
    (h : Lenient R) {state : BootState} (hstate : state ≠ .detect) :
    Keeps (Along R setting) (action state : Boot φ μ Unit) := by
  by_cases hquiet : state.isQuiet = true
  · exact keeps_setting_of_known (keeps_known_of_ground (keeps_action h hquiet))
  · cases state with
    | detect => exact absurd rfl hstate
    | copyPayloads => exact keeps_copyPayloads_setting h.toPatient
    | archPreJumpFixup => exact keeps_setting_of_known (keeps_preJumpFixup_known h.toPatient)
    | _ => exact absurd rfl hquiet

/-- No action goes on to another state by itself, and the world moves along. -/
theorem keeps_action_along [Mapping μ] {R : World φ → World φ → Prop} [IsPreorder (World φ) R]
    (h : Lenient R) (state : BootState) :
    Keeps (Along R Session.state) (action state : Boot φ μ Unit) := by
  by_cases hstate : state = .detect
  · rw [hstate]
    exact keeps_detect_state h.toQuiet
  · exact keeps_state_of_setting (keeps_action_setting h hstate)

theorem keeps_state [Mapping μ] (state : BootState) :
    Keeps (Same Session.state) (action state : Boot φ μ Unit) :=
  (keeps_action_along lenient_blind state).mono fun _ _ h => h.2

/-- The first state finds a platform, and drops a kernel without bytes. -/
theorem found_of_detect {s t : Session φ μ} (h : detect s = .ok () t) :
    t.config.kernel.isSome = s.config.bootsKernel ∧ t.context.platform.isSome := by
  rcases detect_cases (lenient_blind (φ := φ)).toQuiet s with
    ⟨e, w, -, hdetect⟩ | ⟨p, f, w, c, -, -, -, hc, ⟨hkernel, -, hdetect⟩ | ⟨e, hdetect⟩⟩
  · cases hdetect.symm.trans h
  · cases hdetect.symm.trans h
    exact ⟨hc.bootsKernel hkernel, rfl⟩
  · cases hdetect.symm.trans h

/-- The hypervisor is entered where its placement says. -/
theorem entry_of_copyPayloads [Mapping μ] {s t : Session φ μ} (h : copyPayloads s = .ok () t) :
    ∃ (entry : Address) (u v : Session φ μ), place s.config.hypervisor u = .ok entry v ∧
      t.context.entry = some entry := by
  have hpatient := (lenient_blind (φ := φ)).toPatient
  unfold copyPayloads at h
  obtain ⟨_, u, hclear, h⟩ := bind_eq_ok.mp h
  rw [get_bind] at h
  obtain ⟨_, v, hwrites, h⟩ := bind_eq_ok.mp h
  obtain ⟨entry, w, hplace, h⟩ := bind_eq_ok.mp h
  have hcleared := (keeps_clear_known (μ := μ) hpatient .preparation).of_ok hclear
  have hconfig : u.config = s.config := congrArg Setting.config (setting_of_known hcleared.2)
  refine ⟨entry, v, w, hconfig ▸ hplace, ?_⟩
  rw [onContext, modify_bind] at h
  cases hkernel : u.config.kernel with
  | none =>
    rw [hkernel] at h
    cases h
    rfl
  | some kernel =>
    rw [hkernel] at h
    have hknown := keeps_placeKernel_known (μ := μ) hpatient kernel
    exact congrArg Prod.snd (hknown.of_ok h).2

end Boot

namespace Session

variable [Firmware φ]

theorem marks_announced (s : Session φ μ) : s.announced.marks = s.marks :=
  World.marks_of_trail (s.world.trail_say _)

end Session

namespace Boot

variable [Firmware φ] [Mapping μ]

theorem follows_step {s : Session φ μ} {script : List Mark}
    (h : Follows Session.marks script s.announced (action s.state s.announced)) :
    Follows Session.marks script s (step s) := by
  cases haction : action s.state s.announced with
  | ok _ t =>
    rw [haction] at h
    rw [step_of_ok haction]
    exact Eq.trans h (by rw [marks_announced])
  | error e t =>
    rw [haction] at h
    obtain ⟨done, hdone, ht⟩ := h
    rw [step_of_error haction]
    exact ⟨done, hdone, by rw [ht, marks_announced]⟩

def scriptsFrom (buffer : Region) (kernel : Bool) : Nat → BootState → List Mark
  | 0, _ => []
  | n + 1, state => state.script buffer kernel ++ scriptsFrom buffer kernel n state.next

/-- If each step follows its script, so do all of them, as long as what the steps need is passed on
from one to the next. -/
theorem follows_steps {I : Nat → Session φ μ → Prop} {buffer : Region} {kernel : Bool}
    (hremaining : ∀ n s, I n s → s.state.remaining = n)
    (hstep : ∀ n s, I (n + 1) s → Follows Session.marks (s.state.script buffer kernel) s (step s))
    (hnext : ∀ n s a t, I (n + 1) s → step s = .ok a t → I n t) (n : Nat) (s : Session φ μ)
    (hs : I n s) :
    Follows Session.marks (scriptsFrom buffer kernel n s.state) s (steps n s) ∧
      ∀ t, steps n s = .ok () t → I 0 t := by
  induction n generalizing s with
  | zero => exact ⟨(List.append_nil _).symm, fun t ht => by cases ht; exact hs⟩
  | succ n ih =>
    have hne : s.state ≠ .transfer := fun h => by
      have := hremaining _ s hs
      rw [BootState.remaining_eq_zero.mpr h] at this
      cases this
    rw [steps_succ hne]
    constructor
    · refine (hstep n s hs).bind fun a t ht => ?_
      rw [← (step_eq_ok ht).2]
      exact (ih t (hnext n s a t hs ht)).1
    · intro t ht
      obtain ⟨a, u, hu, hrest⟩ := bind_eq_ok.mp ht
      exact (ih u (hnext n s a u hs hu)).2 t hrest

end Boot

namespace Session

variable [Firmware φ] [Mapping μ]

/-- The region of the buffer that is reserved within the first steps, if one is. -/
def reservedRegion (s : Session φ μ) : Region :=
  ((s.afterSteps 5).mapBuffer.map (·.region)).getD .empty

/-- The boot with `n` states before the transfer, all others having succeeded. -/
structure OnCourse (s₀ : Session φ μ) (n : Nat) (s : Session φ μ) : Prop where
  remaining : s.state.remaining = n
  reached : n ≤ 8 ∧ s = s₀.afterSteps (8 - n)
  kernel : 2 ≤ n → n < 8 → s.config.kernel.isSome = s₀.config.bootsKernel
  platform : n < 8 → s.context.platform.isSome
  entry : n < 2 → s.context.entry.isSome

variable {s₀ s : Session φ μ} {n : Nat}

theorem OnCourse.follows_step (h : OnCourse s₀ (n + 1) s) :
    Follows Session.marks (s.state.script s₀.reservedRegion s₀.config.bootsKernel) s
      (Boot.step s) := by
  have hremaining := h.remaining
  obtain ⟨-, hreached⟩ := h.reached
  refine Boot.follows_step (Boot.follows_action s.announced ?_ ?_ ?_ ?_)
  · intro htransfer
    rw [show s.state = .transfer from htransfer] at hremaining
    cases hremaining
  · intro hacquire b t ht hb
    rw [show s.state = .acquireMemoryMap from hacquire] at hremaining
    cases hremaining
    have hstepped := stepped_of_ok (s := s) (t := t) (by rw [show s.state = _ from hacquire]; exact ht)
    rw [reservedRegion, afterSteps_succ s₀ 4, ← show s = s₀.afterSteps 4 from hreached, hstepped]
    dsimp only
    rw [hb]
    rfl
  · intro hterminate b hb
    rw [show s.state = .terminateFirmwareServices from hterminate] at hremaining
    cases hremaining
    rw [reservedRegion, ← show s = s₀.afterSteps 5 from hreached, show s.mapBuffer = some b from hb]
    rfl
  · intro hcopy
    rw [show s.state = .copyPayloads from hcopy] at hremaining
    cases hremaining
    exact h.kernel (by decide) (by decide)

theorem OnCourse.step {a : BootState} {t : Session φ μ} (h : OnCourse s₀ (n + 1) s)
    (ht : Boot.step s = .ok a t) : OnCourse s₀ n t := by
  obtain ⟨hle, hreached⟩ := h.reached
  have hremaining := h.remaining
  have hstepped := (Boot.step_eq_ok ht).1
  obtain ⟨u, haction, hu⟩ := Boot.action_of_step_ok ht
  have hnow : t.state.remaining = n := by
    rw [hu, BootState.remaining_next, hremaining, Nat.add_sub_cancel]
  have hthere : n ≤ 8 ∧ t = s₀.afterSteps (8 - n) := by
    have hcount : 8 - n = 8 - (n + 1) + 1 := by omega
    exact ⟨by omega, by rw [hstepped, hcount, afterSteps_succ, ← hreached]⟩
  -- the first state decides on the kernel, and the copies on the entry; no other state does
  by_cases hdetect : s.state = .detect
  · rw [hdetect] at hremaining haction
    cases hremaining
    obtain ⟨hkernel, hplatform⟩ := Boot.found_of_detect haction
    have hstart : s = s₀ := hreached
    rw [hu] at hnow hthere ⊢
    exact ⟨hnow, hthere, fun _ _ => hstart ▸ hkernel, fun _ => hplatform,
      fun h => absurd h (by decide)⟩
  · by_cases hcopies : s.state = .copyPayloads
    · rw [hcopies] at hremaining haction
      cases hremaining
      have hsetting : u.setting = s.setting :=
        ((Boot.keeps_copyPayloads_setting (μ := μ) (lenient_blind (φ := φ)).toPatient).of_ok haction).2
      have hplatform : u.context.platform = s.context.platform := congrArg Setting.platform hsetting
      obtain ⟨entry, -, -, -, hentry⟩ := Boot.entry_of_copyPayloads haction
      rw [hu] at hnow hthere ⊢
      exact ⟨hnow, hthere, fun h => absurd h (by decide), fun _ => hplatform ▸ h.platform (by decide),
        fun _ => Option.isSome_of_eq_some hentry⟩
    · have hknown := Boot.known_of_action hdetect hcopies haction
      have hconfig : u.config = s.config := congrArg (·.1.config) hknown
      have hplatform : u.context.platform = s.context.platform := congrArg (·.1.platform) hknown
      have hentry : u.context.entry = s.context.entry := congrArg Prod.snd hknown
      have hfirst : n + 1 ≠ 8 := fun h => hdetect (BootState.remaining_inj.mp (hremaining.trans h))
      have hlast : n + 1 ≠ 2 := fun h => hcopies (BootState.remaining_inj.mp (hremaining.trans h))
      rw [hu] at hnow hthere ⊢
      refine ⟨hnow, hthere, fun h₁ h₂ => ?_, fun h₁ => ?_, fun h₁ => ?_⟩
      · exact hconfig ▸ h.kernel (by omega) (by omega)
      · exact hplatform ▸ h.platform (by omega)
      · exact hentry ▸ h.entry (by omega)

end Session

/-! ## The end of a boot -/

theorem Handoff.idles_trace (m : Machine) (p : Platform) (entry : Address) (params : HandoffParams)
    (map : Option MemoryMapInfo) : m.Idles (Handoff.trace m p entry params map) := by
  unfold Handoff.trace
  induction texts p entry params map generalizing m with
  | nil => exact ⟨rfl, rfl, fun _ h => h⟩
  | cons text rest ih => exact (m.idles_trace text).trans (ih (m.trace text))

namespace Session

variable [Firmware φ]

theorem marks_fail (e : BootError) (s : Session φ μ) : (s.fail e).2.marks = s.marks := by
  have htrail := (Machine.trail_trace _ s!"[ERROR] boot failed: {e}\n").trans (s.world.trail_say
    ⟨.error, "boot_handoff::sequencer", s!"Boot failed ({e.errorClass.inspect}): {e}"⟩)
  exact World.marks_of_trail htrail

theorem marks_enter (p : Platform) (entry : Address) (s : Session φ μ) :
    (s.enter p entry).2.marks = s.marks ++ [.hook .transfer] := by
  let params := s.context.handoffParams
  let machine := Handoff.trace s.world.machine p entry params s.context.memoryMap
  let line : Line :=
    ⟨.info, "boot_handoff::sequencer", s!"Jumping to the hypervisor at {entry}"⟩
  let w := World.say { s.world with machine } line
  have hw : w.marks = s.marks := World.marks_of_trail
    ((World.trail_say _ line).trans (Handoff.idles_trace _ p entry params s.context.memoryMap).trail)
  have henter : Follows World.marks [.hook .transfer] w (Host.enter (ε := Empty) p entry params w) := by
    refine (Host.follows_hook .transfer w).bind_same fun _ => Keeps.bind Keeps.get fun _ => ?_
    split
    · exact Keeps.bind (Host.keeps_say quiet_marks _) fun _ => Keeps.pure _
    · exact Keeps.pure _
  unfold enter
  dsimp only
  cases h : Host.enter (ε := Empty) p entry params w with
  | ok outcome t =>
    rw [h] at henter
    change t.marks = _
    exact Eq.trans henter (by rw [hw])
  | error e t => exact nomatch e

/-- The end of a boot changes the world and nothing else. -/
theorem world_fail {R : World φ → World φ → Prop} [IsPreorder (World φ) R] (h : Quiet R)
    (e : BootError) (s : Session φ μ) :
    (s.fail e).2 = { s with world := (s.fail e).2.world } ∧ R s.world (s.fail e).2.world :=
  ⟨rfl, trans_of R (h.say _ _) (h.machine _ _ (Machine.idles_trace _ _))⟩

theorem world_enter {R : World φ → World φ → Prop} [IsPreorder (World φ) R] (h : Patient R)
    (p : Platform) (entry : Address) (s : Session φ μ) :
    (s.enter p entry).2 = { s with world := (s.enter p entry).2.world } ∧
      R s.world (s.enter p entry).2.world := by
  let params := s.context.handoffParams
  let machine := Handoff.trace s.world.machine p entry params s.context.memoryMap
  let line : Line :=
    ⟨.info, "boot_handoff::sequencer", s!"Jumping to the hypervisor at {entry}"⟩
  let w := World.say { s.world with machine } line
  have hw : R s.world w := trans_of R
    (h.machine s.world machine (Handoff.idles_trace _ p entry params s.context.memoryMap)) (h.say _ line)
  have henter : Keeps R (Host.enter (ε := Empty) p entry params) := by
    refine Keeps.bind (Host.keeps_hook h .transfer) fun _ => Keeps.bind Keeps.get fun _ => ?_
    split
    · exact Keeps.bind (Host.keeps_say h.toQuiet _) fun _ => Keeps.pure _
    · exact Keeps.pure _
  unfold enter
  dsimp only
  cases hres : Host.enter (ε := Empty) p entry params w with
  | ok outcome t => exact ⟨rfl, trans_of R hw (henter.of_ok hres)⟩
  | error e t => exact nomatch e

theorem world_transfer {R : World φ → World φ → Prop} [IsPreorder (World φ) R] (h : Patient R)
    (s : Session φ μ) : s.transfer.2 = { s with world := s.transfer.2.world } ∧
      R s.world s.transfer.2.world := by
  unfold transfer
  split
  · exact s.world_enter h _ _
  · exact s.world_fail h.toQuiet _

theorem transfer_of_ne {s : Session φ μ} (h : s.state ≠ .transfer) :
    s.transfer = s.fail (.outOfOrder s.state) := by
  unfold transfer
  cases hs : s.state <;> first | rfl | exact absurd hs h

theorem transfer_of_known {s : Session φ μ} {p : Platform} {entry : Address}
    (hstate : s.state = .transfer) (hp : s.context.platform = some p)
    (hentry : s.context.entry = some entry) : s.transfer = s.enter p entry := by
  unfold transfer
  rw [hstate, hp, hentry]

variable [Mapping μ]

theorem state_of_step_error {s t : Session φ μ} {e : BootError} (h : Boot.step s = .error e t) :
    t.state = s.state := by
  rcases s.stepped_cases with ⟨u, hok, -⟩ | ⟨e', herror⟩
  · rw [Boot.step_of_ok hok] at h
    cases h
  · rw [Boot.step_of_error herror] at h
    cases h
    have hstate := (Boot.keeps_state (μ := μ) (φ := φ) s.state).of_error herror
    exact hstate

/-- The write phases are where memory changes: a state with none in its script changes no memory. -/
theorem memory_stepped {s : Session φ μ} {buffer : Region} {kernel : Bool}
    (h : ∀ phase, Mark.writes phase ∉ s.state.script buffer kernel) :
    s.stepped.memory = s.memory := by
  have haction : (final (Boot.action s.state s.announced)).memory = s.memory := by
    by_cases hquiet : s.state.isQuiet = true
    · exact memory_of_ground (Boot.keeps_action (φ := φ) (μ := μ) lenient_blind hquiet s.announced).2
    · cases hs : s.state with
      | detect =>
        exact congrArg Prod.snd (Boot.keeps_detect (lenient_blind (φ := φ)).toQuiet s.announced).2
      | copyPayloads => exact absurd (by rw [hs]; exact List.mem_cons_self) (h .preparationClear)
      | archPreJumpFixup => exact absurd (by rw [hs]; exact List.mem_cons_self) (h .cleanupClear)
      | _ => exact absurd (by rw [hs]; rfl) hquiet
  rcases s.stepped_cases with ⟨t, hok, hstepped⟩ | ⟨e, herror⟩
  · rw [hok] at haction
    rw [hstepped]
    exact haction
  · rwa [herror] at haction

end Session

/-! ## Memory and marks -/

namespace Session

/-- Marks were added, and if none of them is of a write phase the memory is as it was. -/
def Marked (s t : Session φ μ) : Prop :=
  ∃ new, t.marks = s.marks ++ new ∧ ((∀ phase, Mark.writes phase ∉ new) → t.memory = s.memory)

instance : IsPreorder (Session φ μ) Marked where
  refl s := ⟨[], (List.append_nil _).symm, fun _ => rfl⟩
  trans s t u := by
    rintro ⟨new, ht, hmemory⟩ ⟨new', hu, hmemory'⟩
    refine ⟨new ++ new', by rw [hu, ht, List.append_assoc], fun hnone => ?_⟩
    have hfirst := hmemory fun phase h => hnone phase (List.mem_append_left new' h)
    have hrest := hmemory' fun phase h => hnone phase (List.mem_append_right new h)
    exact hrest.trans hfirst

theorem marked_of_added {s t : Session φ μ} (hworld : World.Added s.world t.world)
    (hmemory : t.memory = s.memory) : Marked s t := by
  obtain ⟨new, hnew⟩ := hworld
  exact ⟨new, hnew.symm, fun _ => hmemory⟩

end Session

namespace Boot

theorem marked_of_ground {x : Boot φ μ α} (hx : Keeps (Along World.Added ground) x) :
    Keeps Marked x := hx.mono fun _ _ h => marked_of_added h.1 (memory_of_ground h.2)

/-- The mark of a write phase comes before all that the phase does. -/
theorem marked_writes (phase : WritePhase) {x : Boot φ μ α} (hx : Keeps (Along World.Added setting) x) :
    Keeps Marked ((record (.writes phase) : Boot φ μ Unit) >>= fun _ => x) := by
  intro s
  have hmark := World.marks_record s.world s.world.firmware (.writes phase)
  obtain ⟨⟨rest, hrest⟩, -⟩ :=
    hx { s with world.machine := s.world.machine.record (.writes phase) }
  refine ⟨.writes phase :: rest, ?_, fun hnone => absurd List.mem_cons_self (hnone phase)⟩
  refine hrest.symm.trans ?_
  rw [hmark, List.append_assoc]
  rfl

variable [Firmware φ] [Mapping μ]

theorem marked_clear (phase : ClearPhase) : Keeps Marked (clear phase : Boot φ μ Unit) := by
  refine Keeps.bind (marked_of_ground keeps_platform) fun p => Keeps.bind Keeps.get fun s => ?_
  refine marked_writes _ (keeps_setting_of_known ?_)
  exact Keeps.bind (keeps_known_inMemory patient_added.toQuiet _ _) fun _ =>
    keeps_known_onContext fun _ => ⟨rfl, rfl, rfl⟩

theorem marked_copyPayloads : Keeps Marked (copyPayloads : Boot φ μ Unit) := by
  refine Keeps.bind (marked_clear .preparation) fun _ => Keeps.bind Keeps.get fun s => ?_
  refine marked_writes .placeHypervisor ?_
  refine Keeps.bind (keeps_setting_of_known (keeps_place_known patient_added.toQuiet _)) fun _ => ?_
  refine Keeps.bind (Keeps.modify fun s => ⟨refl_of World.Added s.world, rfl⟩) fun _ => ?_
  split
  · exact keeps_setting_of_known (keeps_placeKernel_known patient_added _)
  · exact Keeps.pure ()

theorem marked_preJumpFixup : Keeps Marked (preJumpFixup : Boot φ μ Unit) := by
  refine Keeps.bind (marked_clear .cleanup) fun _ => ?_
  refine Keeps.bind (marked_of_ground keeps_platform) fun p => ?_
  refine Keeps.bind (marked_of_ground (keeps_hook patient_added p _)) fun _ => ?_
  exact marked_of_ground (keeps_say patient_added.toQuiet _ _)

theorem marked_action (state : BootState) : Keeps Marked (action state : Boot φ μ Unit) := by
  by_cases hquiet : state.isQuiet = true
  · exact marked_of_ground (keeps_action lenient_added hquiet)
  · cases state with
    | detect =>
      exact (keeps_detect patient_added.toQuiet).mono fun _ _ h =>
        marked_of_added h.1 (congrArg Prod.snd h.2)
    | copyPayloads => exact marked_copyPayloads
    | archPreJumpFixup => exact marked_preJumpFixup
    | _ => exact absurd rfl hquiet

end Boot

namespace Session

variable [Firmware φ] [Mapping μ]

/-- Whatever a step comes to, it changes the memory only after it has marked a write phase. -/
theorem marked_stepped (s : Session φ μ) : Marked s s.stepped := by
  have hannounced : Marked s s.announced := marked_of_added (patient_added.say _ _) rfl
  refine trans_of Marked hannounced ?_
  have hmarked := Boot.marked_action (φ := φ) (μ := μ) s.state
  rcases s.stepped_cases with ⟨t, hok, hstepped⟩ | ⟨e, herror⟩
  · have hmoved : Marked s.announced t := hmarked.of_ok hok
    rw [hstepped]
    exact hmoved
  · exact hmarked.of_error herror

theorem scriptsFrom_detect (buffer : Region) (kernel : Bool) :
    Boot.scriptsFrom buffer kernel 8 .detect ++ [.hook .transfer] = bootOrder buffer kernel := by
  cases kernel <;> rfl

theorem transfer_notMem_scriptsFrom (buffer : Region) (kernel : Bool) :
    Mark.hook .transfer ∉ Boot.scriptsFrom buffer kernel 8 .detect := by
  cases kernel <;> simp [Boot.scriptsFrom, BootState.script, BootState.next]

theorem onCourse_start (world : World φ) (memory : μ) (config : BootConfig) :
    OnCourse (start world memory config) 8 (start world memory config) :=
  ⟨rfl, ⟨Nat.le_refl 8, rfl⟩, fun _ h => absurd h (Nat.lt_irrefl 8),
    fun h => absurd h (Nat.lt_irrefl 8), fun h => absurd h (by decide)⟩

theorem run_of_ok {s t : Session φ μ} (h : Boot.runUntilTransfer s = .ok () t) :
    s.run = t.transfer := by
  rw [run, h]

theorem run_of_error {s t : Session φ μ} {e : BootError}
    (h : Boot.runUntilTransfer s = .error e t) : s.run = t.fail e := by
  rw [run, h]

/-- So does a whole run. -/
theorem marked_run (s : Session φ μ) : Marked s s.run.2 := by
  have hsteps : ∀ n, Marked s (s.afterSteps n) :=
    afterSteps_induction (fun t ht => trans_of Marked ht t.marked_stepped) (refl_of Marked s)
  cases hrun : Boot.runUntilTransfer s with
  | ok _ t =>
    obtain ⟨n, rfl, -⟩ := Boot.runUntilTransfer_eq_ok hrun
    obtain ⟨hsame, hworld⟩ := (s.afterSteps n).world_transfer patient_added
    rw [run_of_ok hrun]
    exact trans_of Marked (hsteps n) (marked_of_added hworld (by rw [hsame]))
  | error e t =>
    obtain ⟨n, rfl⟩ := Boot.runUntilTransfer_eq_error hrun
    rw [run_of_error hrun]
    exact trans_of Marked (hsteps (n + 1))
      (marked_of_added (world_fail patient_added.toQuiet e _).2 rfl)

theorem follows_runUntilTransfer (world : World φ) (memory : μ) (config : BootConfig) :
    let s₀ := start world memory config
    Follows Session.marks (Boot.scriptsFrom s₀.reservedRegion config.bootsKernel 8 .detect) s₀
        (Boot.runUntilTransfer s₀) ∧
      ∀ s, Boot.runUntilTransfer s₀ = .ok () s → OnCourse s₀ 0 s :=
  Boot.follows_steps (fun _ _ h => h.remaining) (fun _ _ h => h.follows_step)
    (fun _ _ _ _ h => h.step) 8 _ (onCourse_start world memory config)

/-- A run stops where something fails, and it enters the payload if nothing does. -/
theorem marks_run (world : World φ) (memory : μ) (config : BootConfig) :
    ∃ done, (start world memory config).run.2.marks = world.marks ++ done ∧
      done <+: bootOrder (start world memory config).reservedRegion config.bootsKernel ∧
      (Mark.hook .transfer ∈ done ↔
        ∃ s, Boot.runUntilTransfer (start world memory config) = .ok () s) := by
  obtain ⟨hfollows, hlast⟩ := follows_runUntilTransfer world memory config
  have habsent := transfer_notMem_scriptsFrom
    (start world memory config).reservedRegion config.bootsKernel
  rw [← scriptsFrom_detect]
  cases hrun : Boot.runUntilTransfer (start world memory config) with
  | ok _ s =>
    have hcourse := hlast s hrun
    obtain ⟨p, hp⟩ := Option.isSome_iff_exists.mp (hcourse.platform (by decide))
    obtain ⟨entry, hentry⟩ := Option.isSome_iff_exists.mp (hcourse.entry (by decide))
    have htransfer := transfer_of_known (BootState.remaining_eq_zero.mp hcourse.remaining) hp hentry
    have hmarks : s.marks = world.marks ++ _ := hfollows.of_ok hrun
    refine ⟨_, ?_, List.prefix_refl _, fun _ => ⟨s, rfl⟩,
      fun _ => List.mem_append_right _ List.mem_cons_self⟩
    rw [run_of_ok hrun, htransfer, marks_enter, hmarks, List.append_assoc]
  | error e s =>
    rw [hrun] at hfollows
    obtain ⟨done, hdone, hmarks⟩ := hfollows
    rw [run_of_error hrun]
    refine ⟨done, (marks_fail e s).trans hmarks, hdone.trans (List.prefix_append _ _),
      fun h => absurd (hdone.subset h) habsent, ?_⟩
    rintro ⟨_, h⟩
    cases h

/-- Whatever fails, the marks of a boot are the beginning of the one order; the transfer is among
them if and only if every state before it succeeded. The memory changes in the write phases alone,
in any step and in a whole run. A step that fails stays in its state, and from any state but the
last nothing is transferred. -/
theorem run_follows_bootOrder (world : World φ) (memory : μ) (config : BootConfig) :
    (∃ buffer done, (start world memory config).run.2.marks = world.marks ++ done ∧
      done <+: bootOrder buffer config.bootsKernel ∧
      (Mark.hook .transfer ∈ done ↔
        ∃ s, Boot.runUntilTransfer (start world memory config) = .ok () s) ∧
      ((∀ phase, Mark.writes phase ∉ done) → (start world memory config).run.2.memory = memory)) ∧
    (∀ s : Session φ μ, Marked s s.stepped) ∧
    (∀ (s t : Session φ μ) e, Boot.step s = .error e t → t.state = s.state) ∧
    ∀ s : Session φ μ, s.state ≠ .transfer →
      s.transfer.1 = .halted ∧ s.transfer.2.marks = s.marks := by
  refine ⟨?_, marked_stepped, fun s t e h => state_of_step_error h, fun s h => ?_⟩
  · obtain ⟨done, hdone, horder, htransfer⟩ := marks_run world memory config
    obtain ⟨new, hnew, hmemory⟩ := (start world memory config).marked_run
    have hall : new = done := List.append_cancel_left (hnew.symm.trans hdone)
    exact ⟨_, done, hdone, horder, htransfer, hall ▸ hmemory⟩
  · rw [transfer_of_ne h]
    exact ⟨rfl, marks_fail _ s⟩

end Session

end BootLoader
