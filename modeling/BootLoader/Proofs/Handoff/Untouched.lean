import BootLoader.Proofs.Handoff.Exit
import BootLoader.Proofs.Handoff.Order

/-! Memory while the firmware is alive. The states that write memory come after the one that ends
the firmware's services, and the boot gets past that one only with an exit that the firmware
accepted. So until such an exit the memory is what it was at the start, however a caller steps on.
-/

namespace BootLoader

variable {φ μ : Type}

open Session World

def Ended (made : List Event) : Prop := ∃ key, Event.exit key (.ok ()) ∈ made

theorem Ended.append_left {made : List Event} (h : Ended made) (new : List Event) :
    Ended (made ++ new) := h.imp fun _ hmem => List.mem_append_left _ hmem

theorem Ended.append_right {new : List Event} (h : Ended new) (made : List Event) :
    Ended (made ++ new) := h.imp fun _ hmem => List.mem_append_right _ hmem

namespace BootState

def alive : List BootState := [detect, earlyArchInit, generalArchInit, diagnosticDump,
  acquireMemoryMap, terminateFirmwareServices]

theorem mem_alive {state : BootState} : state ∈ alive ↔ state.firmwareTerminated = false := by
  cases state <;> decide

theorem writes_notMem_script {state : BootState} (h : state ∈ alive) (buffer : Region)
    (kernel : Bool) (phase : WritePhase) : Mark.writes phase ∉ state.script buffer kernel := by
  cases state <;> simp [script, alive] at h ⊢

theorem mem_alive_of_next {state : BootState} (h : state.next ∈ alive) : state ∈ alive := by
  cases state <;> simp [next, alive] at h ⊢

/-- There is one way out of these states. -/
theorem eq_terminate_of_next {state : BootState} (h : state ∈ alive) (hnext : state.next ∉ alive) :
    state = terminateFirmwareServices := by
  cases state <;> simp [next, alive] at h hnext ⊢

end BootState

variable [Firmware φ]

/-- The state that ends the firmware's services does so with an exit that the firmware accepted. -/
theorem Boot.ended_of_terminate {s t : Session φ μ} (h : terminateFirmwareServices s = .ok () t) :
    ∃ new, t.world.calls = s.world.calls ++ new ∧ Ended new := by
  cases hbuffer : s.mapBuffer with
  | none =>
    rw [terminateFirmwareServices_of_none hbuffer] at h
    cases h
  | some buffer =>
    obtain ⟨v, hv, herror, hok⟩ := terminateFirmwareServices_of_fill hbuffer
    cases hfill : Host.fillAndExit buffer v with
    | error e w => cases (herror e w hfill).symm.trans h
    | ok map w =>
      obtain ⟨u, hdone, hu, -⟩ := hok map w hfill
      cases hdone.symm.trans h
      refine ⟨.quiesce :: [.memoryMap buffer.region (.filled map.key map.layout),
        .exit map.key (.ok ())], ?_, map.key, by simp⟩
      rw [hu, Host.calls_of_fillAndExit_ok hfill, hv, List.append_assoc]
      rfl

namespace Session

variable [Mapping μ]

/-- How the memory stands with the state and with the calls that were made. -/
structure Untouched (m₀ : μ) (made : List Event) (s : Session φ μ) : Prop where
  stage : Stage s made
  memory : s.state ∈ BootState.alive → s.memory = m₀
  ended : s.state ∉ BootState.alive → Ended made

variable {m₀ : μ} {made : List Event} {s : Session φ μ}

/-- No step leads back to a state in which the services are up. -/
theorem mem_alive_of_stepped (h : s.stepped.state ∈ BootState.alive) : s.state ∈ BootState.alive := by
  rcases s.stepped_cases with ⟨t, -, hstepped⟩ | ⟨e, herror⟩
  · rw [hstepped] at h
    exact BootState.mem_alive_of_next h
  · rwa [state_of_step_error (Boot.step_of_error herror)] at h

theorem ended_of_stepped {new : List Event} (hcalls : s.stepped.world.calls = s.world.calls ++ new)
    (hs : s.state ∈ BootState.alive) (hnext : s.stepped.state ∉ BootState.alive) : Ended new := by
  rcases s.stepped_cases with ⟨t, hok, hstepped⟩ | ⟨e, herror⟩
  · rw [hstepped] at hcalls hnext
    rw [BootState.eq_terminate_of_next hs hnext] at hok
    obtain ⟨new', ht, hended⟩ := Boot.ended_of_terminate hok
    rw [calls_announced] at ht
    rwa [List.append_cancel_left (hcalls.symm.trans ht)]
  · rw [state_of_step_error (Boot.step_of_error herror)] at hnext
    exact absurd hs hnext

theorem Untouched.stepped (h : Untouched m₀ made s) :
    ∃ new, s.stepped.world.calls = s.world.calls ++ new ∧ Untouched m₀ (made ++ new) s.stepped := by
  obtain ⟨new, hcalls, hstage⟩ := h.stage.stepped
  refine ⟨new, hcalls, hstage, fun hnext => ?_, fun hnext => ?_⟩
  · have hs := mem_alive_of_stepped hnext
    rw [memory_stepped (BootState.writes_notMem_script hs .empty false), h.memory hs]
  · by_cases hs : s.state ∈ BootState.alive
    · exact (ended_of_stepped hcalls hs hnext).append_right made
    · exact (h.ended hs).append_left new

theorem untouched_afterSteps (world : World φ) (memory : μ) (config : BootConfig) (n : Nat) :
    ∃ made, ((start world memory config).afterSteps n).world.calls = world.calls ++ made ∧
      Untouched memory made ((start world memory config).afterSteps n) := by
  have hstart : 4 ≤ BootState.detect.remaining := by decide
  refine afterSteps_induction
    (I := fun t => ∃ made, t.world.calls = world.calls ++ made ∧ Untouched memory made t) ?_
    ⟨[], (List.append_nil _).symm, .unreserved hstart (List.forall_mem_nil _), fun _ => rfl,
      fun h => absurd List.mem_cons_self h⟩ n
  rintro t ⟨made, hcalls, hmade⟩
  obtain ⟨new, hnew, hstepped⟩ := hmade.stepped
  exact ⟨made ++ new, by rw [hnew, hcalls, List.append_assoc], hstepped⟩

/-- Until the firmware has accepted an exit the whole memory is what it was at the start, whatever
the firmware answers, whichever hooks fail and however often a boot is stepped. A run that fails
while the services are up leaves it so, and where it differs the services are known to be gone. -/
theorem memory_untouched_until_exit (world : World φ) (memory : μ) (config : BootConfig) :
    (∀ n, ∃ made, ((start world memory config).afterSteps n).world.calls = world.calls ++ made ∧
      (¬ Ended made → ((start world memory config).afterSteps n).memory = memory)) ∧
    (∀ e s, Boot.runUntilTransfer (start world memory config) = .error e s →
      s.state ∈ BootState.alive →
        s.memory = memory ∧ (start world memory config).run.2.memory = memory) ∧
    ∀ n, ((start world memory config).afterSteps n).memory ≠ memory →
      ((start world memory config).afterSteps n).state.firmwareTerminated = true := by
  have halive : ∀ n, ((start world memory config).afterSteps n).state ∈ BootState.alive →
      ((start world memory config).afterSteps n).memory = memory := fun n hn =>
    have ⟨_, _, huntouched⟩ := untouched_afterSteps world memory config n
    huntouched.memory hn
  refine ⟨fun n => ?_, fun e s hrun hs => ?_, fun n hn => ?_⟩
  · obtain ⟨made, hcalls, huntouched⟩ := untouched_afterSteps world memory config n
    refine ⟨made, hcalls, fun hended => huntouched.memory ?_⟩
    by_contra hs
    exact hended (huntouched.ended hs)
  · obtain ⟨k, rfl⟩ := Boot.runUntilTransfer_eq_error hrun
    have hmemory := halive (k + 1) hs
    exact ⟨hmemory, by rw [run_of_error hrun]; exact hmemory⟩
  · by_contra hstate
    rw [Bool.not_eq_true] at hstate
    exact hn (halive n (BootState.mem_alive.mpr hstate))

end Session

end BootLoader
