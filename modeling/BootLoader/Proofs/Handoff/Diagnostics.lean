import BootLoader.Proofs.Handoff.Integrity
import BootLoader.Proofs.Handoff.Reveals
import BootLoader.Proofs.Handoff.Step

/-! Diagnostics are for the eye alone. Two boots that differ in whether they dump the firmware's
tables, and in what their serial lines put up with, do the same and come to the same end. -/

namespace BootLoader

open EStateM (Result)

variable {φ ψ μ ε α β : Type}

def BootConfig.undumped (c : BootConfig) : BootConfig := { c with diagnosticDump := false }

theorem BootConfig.eq_of_undumped {c d : BootConfig} (h : c.undumped = d.undumped) :
    ∃ dump, d = { c with diagnosticDump := dump } := by
  cases c
  cases d
  cases h
  exact ⟨_, rfl⟩

/-- What is left of a boot when nobody watches, and nobody asks for a dump. -/
def Session.mute (look : φ → ψ) (s : Session φ μ) : Session ψ μ where
  world := s.world.mute look
  memory := s.memory
  config := s.config.undumped
  state := s.state
  context := s.context
  mapBuffer := s.mapBuffer

namespace Boot

/-- The two computations cannot be told apart by what `mute` leaves, and whatever failure they end
in stops a boot. -/
abbrev Matched (look : φ → ψ) (x y : Boot φ μ α) : Prop :=
  Twins (Session.mute look) BootError.Fatal x y

variable {look : φ → ψ} {s t : Session φ μ}

/-- What is left is the same part by part. -/
theorem parts_of_mute (h : s.mute look = t.mute look) :
    s.world.mute look = t.world.mute look ∧ s.memory = t.memory ∧
      s.config.undumped = t.config.undumped ∧ s.state = t.state ∧ s.context = t.context ∧
        s.mapBuffer = t.mapBuffer :=
  Session.mk.inj h

theorem reveals_mute : Reveals look (Session.mute look : Session φ μ → Session ψ μ) where
  world _ _ h := (parts_of_mute h).1
  state _ _ h := (parts_of_mute h).2.2.2.1
  context _ _ h := (parts_of_mute h).2.2.2.2.1
  mapBuffer _ _ h := (parts_of_mute h).2.2.2.2.2
  withWorld s t w w' h hw := by
    obtain ⟨-, hmemory, hconfig, hstate, hcontext, hbuffer⟩ := parts_of_mute h
    unfold Session.mute
    simp only [hw, hmemory, hconfig, hstate, hcontext, hbuffer]
  withContext s t f h := congrArg (fun u : Session ψ μ => { u with context := f u.context }) h
  withBuffer s t b h := congrArg (fun u : Session ψ μ => { u with mapBuffer := b }) h

/-- Of a failure that is caught, it is known that it would have stopped the boot. -/
theorem matched_attempt_bind {x y : Boot φ μ α} {f g : Except BootError α → Boot φ μ β}
    (hx : Matched look x y) (hok : ∀ a, Matched look (f (.ok a)) (g (.ok a)))
    (herror : ∀ e, e.Fatal → Matched look (f (.error e)) (g (.error e))) :
    Matched look (attempt x >>= f) (attempt y >>= g) := by
  intro s t h
  have hst := hx s t h
  rw [bind_apply, bind_apply]
  unfold attempt
  generalize x s = r, y t = r' at hst
  cases hst with
  | ok a hview => exact hok a _ _ hview
  | error he hview => exact herror _ he _ _ hview

theorem matched_checkPlacement :
    Matched look (checkPlacement : Boot φ μ Unit) checkPlacement := by
  unfold checkPlacement
  refine Twins.bind (twins_platform reveals_mute) fun p => Twins.get_bind fun s t h => ?_
  obtain ⟨-, -, hconfig, -, hcontext, -⟩ := parts_of_mute h
  obtain ⟨dump, hdump⟩ := BootConfig.eq_of_undumped hconfig
  have hsame : t.config.checkPlacement p t.context.loaderImage =
      s.config.checkPlacement p s.context.loaderImage := by
    rw [hdump, hcontext]
    rfl
  rw [hsame]
  split
  · exact Twins.pure ()
  · exact Twins.throw nofun

variable [Firmware φ]

theorem matched_inMemory (hlook : Deaf look) {wrap : ε → BootError}
    (hwrap : ∀ e, (wrap e).Fatal) (x : Task μ ε α) :
    Matched look (inMemory wrap x : Boot φ μ α) (inMemory wrap x) := by
  intro s t h
  obtain ⟨hworld, hmemory, hconfig, hstate, hcontext, hbuffer⟩ := parts_of_mute h
  have hrest : ∀ (lines : List Line) (m : μ),
      ({ s with world := s.world.sayAll lines, memory := m } : Session φ μ).mute look =
        ({ t with world := t.world.sayAll lines, memory := m } : Session φ μ).mute look := by
    intro lines m
    unfold Session.mute
    simp only [World.mute_sayAll hlook, hworld, hconfig, hstate, hcontext, hbuffer]
  unfold inMemory
  rw [hmemory]
  dsimp only
  cases (x.run t.memory).1.result with
  | ok a => exact .ok a (hrest _ _)
  | error e => exact .error (hwrap e) (hrest _ _)

/-! ## The states -/

theorem matched_admitPayloads (hlook : Deaf look) :
    Matched look (admitPayloads : Boot φ μ Unit) admitPayloads := by
  unfold admitPayloads
  refine Twins.get_bind fun s t h => ?_
  obtain ⟨dump, hdump⟩ := BootConfig.eq_of_undumped (parts_of_mute h).2.2.1
  have hempty : t.config.kernelIsEmpty = s.config.kernelIsEmpty := by rw [hdump]; rfl
  have hhypervisor : t.config.hypervisor = s.config.hypervisor := by rw [hdump]
  have hpolicy : t.config.kernelPolicy = s.config.kernelPolicy := by rw [hdump]
  dsimp only
  rw [hempty, hhypervisor, hpolicy]
  cases s.config.hypervisor.isEmpty with
  | true => exact Twins.throw_bind nofun
  | false =>
    cases s.config.kernelIsEmpty with
    | false => exact Twins.pure ()
    | true =>
      cases s.config.kernelPolicy with
      | require => exact Twins.throw nofun
      | skip =>
        refine Twins.unseen_bind (unseen_say reveals_mute hlook _ _)
          (unseen_say reveals_mute hlook _ _) ?_
        exact Twins.modify fun _ _ h => congrArg
          (fun u : Session ψ μ => { u with config := { u.config with kernel := none } }) h

theorem mute_found (hlook : Deaf look) (h : s.mute look = t.mute look) (p : Platform) :
    ({ s with context := found s.context p s.world.firmware } : Session φ μ).mute look =
      ({ t with context := found t.context p t.world.firmware } : Session φ μ).mute look := by
  obtain ⟨hworld, hmemory, hconfig, hstate, hcontext, hbuffer⟩ := parts_of_mute h
  have himage := hlook.loaderImage _ _ (World.look_mute hworld)
  have htable := hlook.systemTable _ _ (World.look_mute hworld)
  unfold Session.mute found
  simp only [hworld, hmemory, hconfig, hstate, hcontext, hbuffer, himage, htable]

theorem matched_detect (hlook : Deaf look) : Matched look (detect : Boot φ μ Unit) detect := by
  unfold detect
  refine Twins.get_bind fun s t h => ?_
  obtain ⟨dump, hdump⟩ := BootConfig.eq_of_undumped (parts_of_mute h).2.2.1
  rw [hdump]
  cases s.config.platform with
  | none => exact Twins.throw nofun
  | some p =>
    refine Twins.bind
      (twins_inWorld reveals_mute BootError.fatal_ofPlatform (Host.matched_publish hlook p))
      fun _ => ?_
    refine Twins.bind (Twins.modify fun _ _ h => mute_found hlook h p) fun _ => ?_
    refine Twins.get_bind fun _ _ _ => ?_
    refine Twins.bind (twins_say reveals_mute hlook _ _ _ _) fun _ => ?_
    exact Twins.bind (matched_admitPayloads hlook) fun _ => matched_checkPlacement

variable [Mapping μ]

theorem matched_clear (hlook : Deaf look) (phase : ClearPhase) :
    Matched look (clear phase : Boot φ μ Unit) (clear phase) := by
  refine Twins.bind (twins_platform reveals_mute) fun p => Twins.get_bind fun s t h => ?_
  obtain ⟨-, -, hconfig, -, hcontext, -⟩ := parts_of_mute h
  obtain ⟨dump, hdump⟩ := BootConfig.eq_of_undumped hconfig
  have hprotected : t.config.protectedRegions t.context.loaderImage phase =
      s.config.protectedRegions s.context.loaderImage phase := by
    rw [hdump, hcontext]
    rfl
  rw [hprotected]
  refine Twins.bind (twins_record reveals_mute _) fun _ => ?_
  refine Twins.bind (matched_inMemory hlook BootError.fatal_ofPlatform _) fun _ => ?_
  exact twins_onContext reveals_mute _

theorem matched_place (hlook : Deaf look) (p : Payload) :
    Matched look (place p : Boot φ μ Address) (place p) := by
  refine Twins.bind (twins_say reveals_mute hlook _ _ _ _) fun _ => ?_
  split
  · exact Twins.bind (matched_inMemory hlook BootError.fatal_memory _) fun _ => Twins.pure _
  · exact Twins.bind (matched_inMemory hlook (BootError.fatal_payload _) _) fun _ => Twins.pure _

theorem matched_placeKernel (hlook : Deaf look) (kernel : Payload) :
    Matched look (placeKernel kernel : Boot φ μ Unit) (placeKernel kernel) := by
  refine Twins.bind (twins_record reveals_mute _) fun _ => ?_
  refine matched_attempt_bind (matched_place hlook kernel) (fun entry => twins_onContext reveals_mute _)
    fun e he => Twins.get_bind fun s t h => ?_
  obtain ⟨dump, hdump⟩ := BootConfig.eq_of_undumped (parts_of_mute h).2.2.1
  have hpolicy : t.config.kernelPolicy = s.config.kernelPolicy := by rw [hdump]
  rw [hpolicy]
  split
  · exact twins_say reveals_mute hlook _ _ _ _
  · exact Twins.throw he

theorem matched_copyPayloads (hlook : Deaf look) :
    Matched look (copyPayloads : Boot φ μ Unit) copyPayloads := by
  refine Twins.bind (matched_clear hlook _) fun _ => Twins.get_bind fun s t h => ?_
  obtain ⟨dump, hdump⟩ := BootConfig.eq_of_undumped (parts_of_mute h).2.2.1
  rw [hdump]
  refine Twins.bind (twins_record reveals_mute _) fun _ => ?_
  refine Twins.bind (matched_place hlook _) fun entry => ?_
  refine Twins.bind (twins_onContext reveals_mute _) fun _ => ?_
  dsimp only
  split
  · exact matched_placeKernel hlook _
  · exact Twins.pure ()

theorem matched_preJumpFixup (hlook : Deaf look) :
    Matched look (preJumpFixup : Boot φ μ Unit) preJumpFixup := by
  refine Twins.bind (matched_clear hlook _) fun _ => ?_
  refine Twins.bind (twins_platform reveals_mute) fun p => ?_
  refine Twins.bind (twins_hook reveals_mute p _) fun _ => ?_
  exact twins_say reveals_mute hlook _ _ _ _

/-! ## The boot -/

theorem matched_action (hlook : Deaf look) (state : BootState) :
    Matched look (action state : Boot φ μ Unit) (action state) := by
  by_cases hquiet : state.isQuiet = true
  · exact twins_action reveals_mute hlook hquiet
  · cases state with
    | detect => exact matched_detect hlook
    | copyPayloads => exact matched_copyPayloads hlook
    | archPreJumpFixup => exact matched_preJumpFixup hlook
    | _ => exact absurd rfl hquiet

theorem matched_step (hlook : Deaf look) :
    Matched look (step : Boot φ μ BootState) step := by
  unfold step
  refine Twins.get_bind fun s t h => ?_
  obtain ⟨-, -, -, hstate, -, -⟩ := parts_of_mute h
  rw [hstate]
  refine Twins.bind (twins_say reveals_mute hlook _ _ _ _) fun _ => ?_
  refine Twins.bind (matched_action hlook _) fun _ => ?_
  refine Twins.bind (Twins.modify fun _ _ h => ?_) fun _ => Twins.pure _
  exact congrArg (fun u : Session ψ μ => { u with state := t.state.next }) h

theorem matched_steps (hlook : Deaf look) (n : Nat) :
    Matched look (steps n : Boot φ μ Unit) (steps n) := by
  induction n with
  | zero => exact Twins.pure ()
  | succ n ih =>
    intro s t h
    obtain ⟨-, -, -, hstate, -, -⟩ := parts_of_mute h
    by_cases hs : s.state = .transfer
    · rw [steps_at_transfer hs, steps_at_transfer (hstate ▸ hs)]
      exact .ok () h
    · rw [steps_succ hs, steps_succ (hstate ▸ hs)]
      exact Twins.bind (matched_step hlook) (fun _ => ih) s t h

theorem matched_runUntilTransfer (hlook : Deaf look) :
    Matched look (runUntilTransfer : Boot φ μ Unit) runUntilTransfer := by
  unfold runUntilTransfer
  refine Twins.get_bind fun s t h => ?_
  obtain ⟨-, -, -, hstate, -, -⟩ := parts_of_mute h
  rw [hstate]
  exact matched_steps hlook _

end Boot

/-! ## Two runs -/

/-- How a run ended, as the firmware and the payload can tell. -/
structure Ending (μ : Type) where
  result : Except BootError Unit
  state : BootState
  context : BootContext
  memory : μ
  /-- the calls to the firmware with its answers, the hooks and the writes, newest first -/
  trail : List Event

namespace Ending

def reached (result : Except BootError Unit) (s : Session φ μ) : Ending μ where
  result := result
  state := s.state
  context := s.context
  memory := s.memory
  trail := s.world.machine.trail

def of : Result BootError (Session φ μ) Unit → Ending μ
  | .ok _ s => .reached (.ok ()) s
  | .error e s => .reached (.error e) s

theorem reached_of_mute {look : φ → ψ} {s t : Session φ μ} (h : s.mute look = t.mute look)
    (result : Except BootError Unit) : Ending.reached result s = .reached result t := by
  obtain ⟨hworld, hmemory, -, hstate, hcontext, -⟩ := Boot.parts_of_mute h
  have htrail := Machine.trail_mute (World.machine_mute hworld)
  unfold reached
  rw [hstate, hcontext, hmemory, htrail]

theorem of_alike {look : φ → ψ} {r r' : Result BootError (Session φ μ) Unit}
    (h : Alike (Session.mute look) BootError.Fatal r r') : of r = of r' := by
  cases h with
  | ok _ h => exact reached_of_mute h (.ok ())
  | error _ h => exact reached_of_mute h (.error _)

end Ending

namespace Session

/-- The same boot with other serial lines, which may refuse any byte, and with or without a dump. -/
def withDiagnostics (s : Session φ μ) (uarts : Nat → Uart) (dump : Bool) : Session φ μ :=
  { s with
    world := { s.world with machine := s.world.machine.withUarts uarts }
    config := { s.config with diagnosticDump := dump } }

theorem mute_withDiagnostics (look : φ → ψ) (s : Session φ μ) (uarts : Nat → Uart) (dump : Bool) :
    (s.withDiagnostics uarts dump).mute look = s.mute look := by
  unfold mute withDiagnostics World.mute
  rw [Machine.mute_withUarts]
  rfl

/-- Diagnostics do not matter to a firmware that does not listen. Whether a boot dumps the
firmware's tables or not, whatever these and the rest of the memory hold, and whichever bytes the
serial lines refuse, a run comes to the same end after the same calls. And no step fails for a
reason that is only a diagnostic's. -/
theorem diagnostics_unseen [Firmware φ] [Mapping μ] {look : φ → ψ} (hlook : Deaf look)
    (s : Session φ μ) (uarts uarts' : Nat → Uart) (dump dump' : Bool) :
    Ending.of (Boot.runUntilTransfer (s.withDiagnostics uarts dump)) =
      Ending.of (Boot.runUntilTransfer (s.withDiagnostics uarts' dump')) ∧
    ∀ e t, Boot.step s = .error e t → e.errorClass ≠ .diagnosticOnly := by
  have hstart :
      (s.withDiagnostics uarts dump).mute look = (s.withDiagnostics uarts' dump').mute look := by
    rw [mute_withDiagnostics, mute_withDiagnostics]
  constructor
  · exact Ending.of_alike (Boot.matched_runUntilTransfer hlook _ _ hstart)
  · intro e t hstep
    have halike := Boot.matched_step hlook s s rfl
    rw [hstep] at halike
    cases halike with
    | error hfatal _ => exact hfatal

end Session

namespace Sample

/-- What the firmware publishes is no root table. -/
def misled : Session ScriptedFirmware Memory :=
  .start ⟨.fresh ⟨2, false⟩, { world.firmware with entries := [⟨.acpi2, .ofNat 0x3000⟩] }⟩ memory config

end Sample

/-- A boot that is warned of what it cannot dump, and one without a dump or a serial line. -/
theorem Session.diagnostics_unseen_sample :
    let full : Uart := ⟨some 0, [], [], []⟩
    let r := Boot.runUntilTransfer (Sample.misled.withDiagnostics (fun _ => .endless) true)
    let r' := Boot.runUntilTransfer (Sample.misled.withDiagnostics (fun _ => full) false)
    ((final r).world.firmware.printed.length = 1 ∧ failure? r = none) ∧
      Ending.of r = Ending.of r' := by
  intro full r r'
  refine ⟨by decide +kernel, ?_⟩
  exact (diagnostics_unseen ScriptedFirmware.deaf Sample.misled (fun _ => .endless)
    (fun _ => full) true false).1

end BootLoader
