import BootLoader.Proofs.Handoff.Integrity
import BootLoader.Proofs.Handoff.Reached
import BootLoader.Proofs.Handoff.Untouched

/-! When a boot turns out to be configured wrongly. Most of it shows before the firmware was asked
for anything but the processor it runs on. What the platform is to clear, and its last hook, are
looked at when the firmware is gone. -/

namespace BootLoader

variable {φ μ : Type}

def Event.isHartQuery : Event → Bool
  | .bootHart _ => true
  | _ => false

open Session World

namespace Session

/-- What a configuration can still fail with when the firmware is gone. -/
inductive RefusedLate [Console φ] (p : Platform) (s : Session φ μ) : BootError → Prop
  /-- a region that the platform wants cleared meets one that must be spared -/
  | plan {phase : ClearPhase} {region hit : Region}
    (hconflict : p.conflict? (s.config.protectedRegions s.context.loaderImage phase)
      (p.clearPlan phase) = some (region, hit)) : RefusedLate p s (.unsafeClear region hit)
  /-- the last hook fails -/
  | hook {w : World φ} {cause : PlatformError}
    (hhook : Host.plainHook p .preJumpFixup w = .error cause s.world) :
    RefusedLate p s (.ofPlatform cause)

end Session

namespace Boot

variable [Firmware φ] {s t : Session φ μ} {p : Platform} {e : BootError}

/-- Until the map is asked for, the firmware is only asked which processor it runs on; and from then
on the failures are its own. -/
theorem acquireMemoryMap_refused (h : acquireMemoryMap s = .error e t) :
    (∃ cause, e = .firmware cause) ∨ Grows Event.isHartQuery s.world t.world := by
  let R : World φ → World φ → Prop := Grows Event.isHartQuery
  have hpatient : Patient R := patient_grows
  let Q : EStateM.Result BootError (Session φ μ) Unit → Prop := fun r =>
    ∀ e t, r = .error e t → (∃ cause, e = .firmware cause) ∨ R s.world t.world
  have herror : ∀ e u, Along R ground s u → Q (.error e u) := by
    rintro e u hu _ _ ⟨⟩
    exact .inr hu.1
  suffices hall : Q (acquireMemoryMap s) from hall e t h
  unfold acquireMemoryMap
  refine keeps_platform.bind_elim (refl_of _ s) herror fun p _ hp => ?_
  refine (keeps_inWorld (Host.keeps_beforeExit hpatient (Host.bootHart_grows fun _ => rfl)
    p)).bind_elim hp herror fun _ _ hbefore => ?_
  refine (keeps_inWorld (Host.keeps_bootCpu hpatient (Host.bootHart_grows fun _ => rfl)
    p)).bind_elim hbefore herror fun cpu _ _ => ?_
  intro e t h
  refine .inl ?_
  refine Guarded.of_error (I := fun _ => True) (E := fun e => ∃ cause, e = .firmware cause) ?_ trivial h
  refine Guarded.bind (Guarded.modify fun _ _ => trivial) fun _ => ?_
  refine Guarded.bind (Guarded.modify fun _ _ => trivial) fun _ => ?_
  refine Guarded.bind (fun u _ => ?_) fun _ => Guarded.modify fun _ _ => trivial
  cases hprobe : (inWorld .firmware Host.probeAndAllocate : Boot φ μ MapBuffer) u with
  | ok buffer v => trivial
  | error e v =>
    obtain ⟨cause, -, rfl⟩ := inWorld_eq_error hprobe
    exact ⟨cause, rfl⟩

variable [Mapping μ]

/-- A clear fails for the configuration where its plan meets a region that must be spared. -/
theorem clear_refused {phase : ClearPhase} (hp : s.context.platform = some p)
    (h : (clear phase : Boot φ μ Unit) s = .error e t) (hclass : e.errorClass = .configuration) :
    RefusedLate p t e := by
  have hknown : t.known = s.known :=
    ((keeps_clear_known (lenient_blind (φ := φ)).toPatient phase).of_error h).2
  unfold clear at h
  rw [bind_of_ok (platform_of_some hp), get_bind] at h
  obtain ⟨_, u, hrecord, h⟩ | h := (bind_eq_error.mp h).symm
  swap
  · cases h
  rcases bind_eq_error.mp h with h | ⟨_, _, -, h⟩
  swap
  · cases h
  obtain ⟨cause, hcause, rfl⟩ := inMemory_eq_error h
  rcases Platform.clear_eq_error hcause with ⟨r, q, hconflict, rfl⟩ | ⟨cause, rfl⟩
  · have hconfig : t.config = s.config := congrArg (·.1.config) hknown
    have hloader : t.context.loaderImage = s.context.loaderImage :=
      congrArg (·.1.loaderImage) hknown
    rw [← hconfig, ← hloader] at hconflict
    exact .plan hconflict
  · cases hclass

theorem platform_of_clear {phase : ClearPhase} {u : Session φ μ} (hp : s.context.platform = some p)
    (h : (clear phase : Boot φ μ Unit) s = .ok () u) : u.context.platform = some p := by
  have hknown := ((keeps_clear_known (lenient_blind (φ := φ)).toPatient phase).of_ok h).2
  rw [← hp]
  exact congrArg (·.1.platform) hknown

/-- The placements have nothing to do with the configuration's class. -/
theorem copyPayloads_refused (hp : s.context.platform = some p)
    (h : (copyPayloads : Boot φ μ Unit) s = .error e t) (hclass : e.errorClass = .configuration) :
    RefusedLate p t e := by
  rw [copyPayloads_eq] at h
  rcases bind_eq_error.mp h with h | ⟨_, u, hclear, h⟩
  · exact clear_refused hp h hclass
  · have hlocated : Located u := Option.isSome_of_eq_some (platform_of_clear hp hclear)
    have hother : e.errorClass ≠ .configuration :=
      (guarded_placePayloads (E := fun e => e.errorClass ≠ .configuration) (fun _ => nofun)
        fun _ _ => nofun).of_error hlocated h
    exact absurd hclass hother

/-- The last state fails for the configuration by its clear or by its hook. -/
theorem preJumpFixup_refused (hp : s.context.platform = some p)
    (h : (preJumpFixup : Boot φ μ Unit) s = .error e t) (hclass : e.errorClass = .configuration) :
    RefusedLate p t e := by
  unfold preJumpFixup at h
  rcases bind_eq_error.mp h with h | ⟨_, u, hclear, h⟩
  · exact clear_refused hp h hclass
  rw [bind_of_ok (platform_of_some (platform_of_clear hp hclear))] at h
  rcases bind_eq_error.mp h with h | ⟨_, _, -, h⟩
  · obtain ⟨cause, hcause, rfl⟩ := inWorld_eq_error h
    exact .hook hcause
  · cases h

end Boot

namespace Session

variable [Firmware φ] [Mapping μ] {s₀ s t : Session φ μ} {e : BootError}

/-- Before the map is asked for no state makes a call. -/
theorem Reached.calls (h : Reached s₀ s) (hs : 4 ≤ s.state.remaining) :
    s.world.calls = s₀.world.calls := by
  induction h with
  | start => rfl
  | @step s t a _ hstep ih =>
    obtain ⟨rfl, hnext⟩ := Boot.step_eq_ok hstep
    rw [hnext, BootState.remaining_next] at hs
    have hacquire : s.state ≠ .acquireMemoryMap := fun h => by
      rw [h] at hs
      exact absurd hs (by decide)
    have hterminate : s.state ≠ .terminateFirmwareServices := fun h => by
      rw [h] at hs
      exact absurd hs (by decide)
    exact (stepped_of_callFree hacquire hterminate).1.trans (ih (by omega))

/-- Where a boot is past the end of the services, they have been ended. -/
theorem Reached.ended {world : World φ} {memory : μ} {config : BootConfig}
    (h : Reached (Session.start world memory config) s) (hs : s.state.firmwareTerminated = true) :
    ∃ made, s.world.calls = world.calls ++ made ∧ Ended made := by
  obtain ⟨n, rfl, -⟩ := h.afterSteps
  obtain ⟨made, hcalls, huntouched⟩ := untouched_afterSteps world memory config n
  refine ⟨made, hcalls, huntouched.ended fun halive => ?_⟩
  rw [BootState.mem_alive.mp halive] at hs
  cases hs

theorem calls_of_step_error {u : Session φ μ} (hstep : Boot.step u = .error e s)
    (hacquire : u.state ≠ .acquireMemoryMap) (hterminate : u.state ≠ .terminateFirmwareServices) :
    s.world.calls = u.world.calls := by
  have hcalls := (stepped_of_callFree hacquire hterminate).1
  rwa [stepped, hstep] at hcalls

/-- Up to the state that asks for the map, what fails for the configuration fails before it asks. -/
theorem Reached.refused_early {u : Session φ μ} (hu : Reached s₀ u) (hbefore : 4 ≤ u.state.remaining)
    (hstep : Boot.step u = .error e s) (hclass : e.errorClass = .configuration) :
    Grows Event.isHartQuery s₀.world s.world := by
  have hcalls := hu.calls hbefore
  by_cases hacquire : u.state = .acquireMemoryMap
  · have haction := Boot.action_of_step_error hstep
    rw [hacquire] at haction
    rcases Boot.acquireMemoryMap_refused haction with ⟨cause, rfl⟩ | ⟨made, hs, hmade⟩
    · cases hclass
    · exact ⟨made, by rw [hs, calls_announced, hcalls], hmade⟩
  · have hterminate : u.state ≠ .terminateFirmwareServices := fun h => by
      rw [h] at hbefore
      exact absurd hbefore (by decide)
    exact .of_same ((calls_of_step_error hstep hacquire hterminate).trans hcalls)

theorem refused_late {u : Session φ μ} {p : Platform} (hp : u.context.platform = some p)
    (hstate : u.state = .copyPayloads ∨ u.state = .archPreJumpFixup)
    (hstep : Boot.step u = .error e s) (hclass : e.errorClass = .configuration) :
    s.world.calls = u.world.calls ∧ RefusedLate p s e := by
  have haction := Boot.action_of_step_error hstep
  have hannounced : u.announced.context.platform = some p := hp
  rcases hstate with hstate | hstate <;> rw [hstate] at haction
  · refine ⟨calls_of_step_error hstep ?_ ?_, Boot.copyPayloads_refused hannounced haction hclass⟩ <;>
      rw [hstate] <;> decide
  · refine ⟨calls_of_step_error hstep ?_ ?_, Boot.preJumpFixup_refused hannounced haction hclass⟩ <;>
      rw [hstate] <;> decide

/-- A boot that fails for its configuration has asked the firmware for nothing but the processor; or
its services are gone, and what is wrong is the platform's plan or its last hook. -/
theorem configuration_refused {world : World φ} {memory : μ} {config : BootConfig}
    (hrun : Boot.runUntilTransfer (start world memory config) = .error e s)
    (hclass : e.errorClass = .configuration) :
    ∃ made, s.world.calls = world.calls ++ made ∧
      ((∀ call ∈ made, Event.isHartQuery call = true) ∨
        Ended made ∧ (s.state = .copyPayloads ∨ s.state = .archPreJumpFixup) ∧
          ∃ p, config.platform = some p ∧ RefusedLate p s e) := by
  obtain ⟨u, hu, hne, hstep⟩ := reached_of_steps_error hrun
  by_cases hbefore : 4 ≤ u.state.remaining
  · obtain ⟨made, hcalls, hmade⟩ := hu.refused_early hbefore hstep hclass
    exact ⟨made, hcalls, .inl hmade⟩
  · have hafter : u.state = .terminateFirmwareServices ∨ u.state = .copyPayloads ∨
        u.state = .archPreJumpFixup := by
      cases h : u.state <;> simp_all [BootState.remaining]
    rcases hafter with hterminate | hgone
    · -- the state before ends in failures of the firmware only
      have hrisks := hu.risks hstep
      rw [hterminate] at hrisks
      obtain ⟨cause, rfl⟩ := hrisks
      cases hclass
    · obtain ⟨p, -, hconfig, hplatform, -⟩ := hu.prepared.platform <| by
        rcases hgone with h | h <;> rw [h] <;> decide
      obtain ⟨made, hcalls, hended⟩ := hu.ended <| by
        rcases hgone with h | h <;> rw [h] <;> rfl
      obtain ⟨hsame, hrefused⟩ := refused_late hplatform hgone hstep hclass
      refine ⟨made, hsame.trans hcalls, .inr ⟨hended, ?_, p, hconfig, hrefused⟩⟩
      rwa [state_of_step_error hstep]

end Session

namespace Sample

def selfClearing : BootConfig :=
  { config with platform := some { platform with preparation := [.ofNat 0x3000 8] } }

def refusal : EStateM.Result BootError (Session ScriptedFirmware Memory) Unit :=
  Boot.runUntilTransfer (start world memory selfClearing)

end Sample

namespace Session

theorem configuration_refused_sample :
    ∃ e, failure? Sample.refusal = some e ∧ e.errorClass = .configuration ∧
      ∃ p, Sample.selfClearing.platform = some p ∧ RefusedLate p (final Sample.refusal) e := by
  have hfailure : failure? Sample.refusal =
      some (.unsafeClear (.ofNat 0x3000 8) (.ofNat 0x3000 0x200)) := by decide +kernel
  have hcalls : (final Sample.refusal).world.calls.all Event.isHartQuery = false := by
    decide +kernel
  refine ⟨_, hfailure, rfl, ?_⟩
  obtain ⟨made, hmade, hearly | ⟨-, -, hlate⟩⟩ :=
    configuration_refused (eq_error_of_failure? hfailure) rfl
  · have hnone : Sample.world.calls = [] := rfl
    rw [Sample.refusal, hmade, hnone, List.nil_append, List.all_eq_true.mpr hearly] at hcalls
    cases hcalls
  · exact hlate

/-- The plan is wrong from the start, and it is refused when the services are gone. -/
theorem plan_refused_after_exit :
    let calls := (final Sample.refusal).world.calls
    failure? Sample.refusal = some (.unsafeClear (.ofNat 0x3000 8) (.ofNat 0x3000 0x200)) ∧
      (failure? Sample.refusal).map BootError.errorClass = some .configuration ∧
      (final Sample.refusal).state = .copyPayloads ∧
      calls.any Event.isExit = true ∧
      calls.map Event.isHartQuery = [true, false, false, false, false, false] := by
  decide +kernel

end Session

end BootLoader
