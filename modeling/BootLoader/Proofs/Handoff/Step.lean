import BootLoader.Handoff.Run
import BootLoader.Proofs.Computation
import Mathlib.Logic.Function.Iterate

/-! Steps, one after the other. A step runs the action of the current state and goes on to the next
state if that succeeded; a caller may go on stepping after a failure. -/

namespace BootLoader

variable {φ μ : Type} [Firmware φ] [Mapping μ]

namespace Session

def announced (s : Session φ μ) : Session φ μ :=
  let line : Line := ⟨.debug, "boot_handoff::sequencer", s!"Boot state: {s.state.inspect}"⟩
  { s with world := s.world.say line }

/-- The boot after one step, be it one that failed. -/
def stepped (s : Session φ μ) : Session φ μ := final (Boot.step s)

def afterSteps (s : Session φ μ) (n : Nat) : Session φ μ := stepped^[n] s

end Session

namespace Boot

theorem step_of_ok {s t : Session φ μ} (h : action s.state s.announced = .ok () t) :
    step s = .ok s.state.next { t with state := s.state.next } := by
  change (action s.state >>= fun _ => _) s.announced = _
  rw [bind_of_ok h]
  rfl

theorem step_of_error {s t : Session φ μ} {e : BootError}
    (h : action s.state s.announced = .error e t) : step s = .error e t := by
  change (action s.state >>= fun _ => _) s.announced = _
  exact bind_of_error h

end Boot

namespace Session

variable {s t : Session φ μ}

theorem stepped_of_ok (h : Boot.action s.state s.announced = .ok () t) :
    s.stepped = { t with state := s.state.next } := by
  rw [stepped, Boot.step_of_ok h]
  rfl

theorem stepped_of_error {e : BootError} (h : Boot.action s.state s.announced = .error e t) :
    s.stepped = t := by
  rw [stepped, Boot.step_of_error h]
  rfl

/-- A step is the action of the state, and the next state if that succeeded. -/
theorem stepped_cases (s : Session φ μ) :
    (∃ t, Boot.action s.state s.announced = .ok () t ∧
      s.stepped = { t with state := s.state.next }) ∨
    ∃ e, Boot.action s.state s.announced = .error e s.stepped := by
  cases h : Boot.action s.state s.announced with
  | ok _ t => exact .inl ⟨t, rfl, stepped_of_ok h⟩
  | error e t => exact .inr ⟨e, by rw [stepped_of_error h]⟩

theorem afterSteps_succ (s : Session φ μ) (n : Nat) :
    s.afterSteps (n + 1) = (s.afterSteps n).stepped := Function.iterate_succ_apply' stepped n s

theorem afterSteps_one (s : Session φ μ) : s.afterSteps 1 = s.stepped := rfl

theorem afterSteps_add (s : Session φ μ) (m n : Nat) :
    s.afterSteps (m + n) = (s.afterSteps m).afterSteps n := by
  unfold afterSteps
  rw [Nat.add_comm, Function.iterate_add_apply]

/-- What every step keeps holds after any number of them. -/
theorem afterSteps_induction {I : Session φ μ → Prop} (hstep : ∀ s, I s → I s.stepped) (h : I s)
    (n : Nat) : I (s.afterSteps n) := by
  induction n with
  | zero => exact h
  | succ n ih =>
    rw [afterSteps_succ]
    exact hstep _ ih

end Session

namespace Boot

theorem steps_at_transfer {s : Session φ μ} (h : s.state = .transfer) (n : Nat) :
    steps n s = .ok () s := by
  cases n with
  | zero => rfl
  | succ n =>
    rw [steps, get_bind, if_pos h]
    rfl

theorem steps_succ {s : Session φ μ} (h : s.state ≠ .transfer) (n : Nat) :
    steps (n + 1) s = (step >>= fun _ => steps n) s := by
  rw [steps, get_bind, if_neg h]
  change (discard step >>= fun _ => steps n) s = _
  rw [bind_apply, bind_apply]
  cases hstep : step s with
  | ok a t =>
    have hdiscard : (discard step : Boot φ μ Unit) s = .ok () t := bind_of_ok hstep
    rw [hdiscard]
  | error e t =>
    have hdiscard : (discard step : Boot φ μ Unit) s = .error e t := bind_of_error hstep
    rw [hdiscard]

theorem action_of_step_error {s t : Session φ μ} {e : BootError} (h : step s = .error e t) :
    action s.state s.announced = .error e t := by
  cases haction : action s.state s.announced with
  | ok _ u =>
    rw [step_of_ok haction] at h
    cases h
  | error e' u =>
    rw [step_of_error haction] at h
    cases h
    rfl

theorem action_of_step_ok {s t : Session φ μ} {a : BootState} (h : step s = .ok a t) :
    ∃ u, action s.state s.announced = .ok () u ∧ t = { u with state := s.state.next } := by
  cases haction : action s.state s.announced with
  | ok _ u =>
    rw [step_of_ok haction] at h
    cases h
    exact ⟨u, rfl, rfl⟩
  | error e u =>
    rw [step_of_error haction] at h
    cases h

theorem step_eq_ok {s t : Session φ μ} {a : BootState} (h : step s = .ok a t) :
    t = s.stepped ∧ t.state = s.state.next := by
  obtain ⟨u, -, rfl⟩ := action_of_step_ok h
  exact ⟨by rw [Session.stepped, h]; rfl, rfl⟩

theorem steps_eq_ok {n : Nat} {s t : Session φ μ} (hn : s.state.remaining ≤ n)
    (h : steps n s = .ok () t) : ∃ k, t = s.afterSteps k ∧ t.state = .transfer := by
  induction n generalizing s with
  | zero =>
    cases h
    exact ⟨0, rfl, BootState.remaining_eq_zero.mp (Nat.le_zero.mp hn)⟩
  | succ n ih =>
    by_cases hs : s.state = .transfer
    · rw [steps_at_transfer hs] at h
      cases h
      exact ⟨0, rfl, hs⟩
    · rw [steps_succ hs, bind_eq_ok] at h
      obtain ⟨_, u, hstep, hrest⟩ := h
      obtain ⟨rfl, hnext⟩ := step_eq_ok hstep
      obtain ⟨k, rfl, hk⟩ := ih (by rw [hnext, BootState.remaining_next]; omega) hrest
      exact ⟨k + 1, rfl, hk⟩

theorem steps_eq_error {n : Nat} {s t : Session φ μ} {e : BootError}
    (h : steps n s = .error e t) : ∃ k, t = s.afterSteps (k + 1) := by
  induction n generalizing s with
  | zero => cases h
  | succ n ih =>
    by_cases hs : s.state = .transfer
    · rw [steps_at_transfer hs] at h
      cases h
    · rw [steps_succ hs, bind_eq_error] at h
      rcases h with hstep | ⟨_, u, hstep, hrest⟩
      · refine ⟨0, ?_⟩
        rw [Session.afterSteps_one, Session.stepped, hstep]
        rfl
      · obtain ⟨rfl, -⟩ := step_eq_ok hstep
        obtain ⟨k, rfl⟩ := ih hrest
        exact ⟨k + 1, rfl⟩

/-- A run that reaches the transfer is so many steps. -/
theorem runUntilTransfer_eq_ok {s t : Session φ μ} (h : runUntilTransfer s = .ok () t) :
    ∃ k, t = s.afterSteps k ∧ t.state = .transfer :=
  steps_eq_ok (Nat.le_refl _) h

/-- So is a run that fails, and at least one. -/
theorem runUntilTransfer_eq_error {s t : Session φ μ} {e : BootError}
    (h : runUntilTransfer s = .error e t) : ∃ k, t = s.afterSteps (k + 1) := steps_eq_error h

end Boot

end BootLoader
