import BootLoader.Proofs.Handoff.Failures
import BootLoader.Proofs.Handoff.Gains

/-! The sessions that a boot reaches by steps that succeed. Each of them has what its state needs,
so such a boot is never out of order, and comes to its end within eight steps. -/

namespace BootLoader

variable {φ μ : Type}

def BootState.IsFrom (state first : BootState) : Prop := state.remaining ≤ first.remaining

instance (state first : BootState) : Decidable (state.IsFrom first) :=
  inferInstanceAs (Decidable (_ ≤ _))

theorem BootState.isFrom_earlyArchInit {state : BootState} :
    state.IsFrom .earlyArchInit ↔ state ≠ .detect := by
  cases state <;> simp [IsFrom, remaining]

namespace Session

variable [Firmware φ] [Mapping μ]

inductive Reached (s₀ : Session φ μ) : Session φ μ → Prop
  | start : Reached s₀ s₀
  | step {s t : Session φ μ} {a : BootState} (h : Reached s₀ s) (hstep : Boot.step s = .ok a t) :
    Reached s₀ t

/-- What there is from which state on. -/
structure Prepared (s₀ s : Session φ μ) : Prop where
  /-- the platform of the configuration, which is the one that the machine is bound to -/
  platform : s.state.IsFrom .earlyArchInit → ∃ p q, s₀.config.platform = some p ∧
    s.context.platform = some p ∧ Host.active s.world = .ok q s.world ∧ q.id = p.id ∧
    q = s₀.world.machine.bound.getD p
  bootCpu : s.state.IsFrom .terminateFirmwareServices → s.context.bootCpu.isSome
  mapBuffer : s.mapBuffer.isSome ↔ s.state = .terminateFirmwareServices
  memoryMap : s.state.IsFrom .copyPayloads → s.context.memoryMap.isSome
  entry : s.state.IsFrom .archPreJumpFixup → s.context.entry.isSome

variable {s₀ s t u : Session φ μ} {a : BootState}

/-! ## Runs -/

theorem Reached.head (hstep : Boot.step s₀ = .ok a u) (h : Reached u s) : Reached s₀ s := by
  induction h with
  | start => exact .step .start hstep
  | step _ hnext ih => exact .step ih hnext

theorem ne_transfer_of_step (h : Boot.step s = .ok a t) : s.state ≠ .transfer := by
  intro hs
  obtain ⟨u, haction, -⟩ := Boot.action_of_step_ok h
  rw [hs] at haction
  cases haction

theorem Reached.afterSteps (h : Reached s₀ s) :
    ∃ n, s = s₀.afterSteps n ∧ n + s.state.remaining = s₀.state.remaining := by
  induction h with
  | start => exact ⟨0, rfl, Nat.zero_add _⟩
  | @step s t a _ hstep ih =>
    obtain ⟨n, hn, hremaining⟩ := ih
    obtain ⟨hstepped, hnext⟩ := Boot.step_eq_ok hstep
    have hpos : s.state.remaining ≠ 0 := fun h =>
      ne_transfer_of_step hstep (BootState.remaining_eq_zero.mp h)
    refine ⟨n + 1, by rw [afterSteps_succ, ← hn, hstepped], ?_⟩
    rw [hnext, BootState.remaining_next]
    omega

theorem reached_of_steps {n : Nat} (h : Boot.steps n s = .ok () t) : Reached s t := by
  induction n generalizing s with
  | zero =>
    cases h
    exact .start
  | succ n ih =>
    by_cases hs : s.state = .transfer
    · rw [Boot.steps_at_transfer hs] at h
      cases h
      exact .start
    · rw [Boot.steps_succ hs, bind_eq_ok] at h
      obtain ⟨_, u, hstep, hrest⟩ := h
      exact (ih hrest).head hstep

/-- A run fails in the first step that fails. -/
theorem reached_of_steps_error {n : Nat} {e : BootError} (h : Boot.steps n s = .error e t) :
    ∃ u, Reached s u ∧ u.state ≠ .transfer ∧ Boot.step u = .error e t := by
  induction n generalizing s with
  | zero => cases h
  | succ n ih =>
    by_cases hs : s.state = .transfer
    · rw [Boot.steps_at_transfer hs] at h
      cases h
    · rw [Boot.steps_succ hs, bind_apply] at h
      cases hstep : Boot.step s with
      | error e' u =>
        rw [hstep] at h
        cases h
        exact ⟨s, .start, hs, hstep⟩
      | ok a u =>
        rw [hstep] at h
        obtain ⟨v, hv, hne, herror⟩ := ih h
        exact ⟨v, hv.head hstep, hne, herror⟩

/-- More steps than there are states left make no difference. -/
theorem steps_of_remaining_le {n : Nat} (h : s.state.remaining ≤ n) :
    Boot.steps n s = Boot.runUntilTransfer s := by
  change _ = Boot.steps s.state.remaining s
  induction n generalizing s with
  | zero => rw [Nat.le_zero.mp h]
  | succ n ih =>
    by_cases hs : s.state = .transfer
    · rw [Boot.steps_at_transfer hs, Boot.steps_at_transfer hs]
    · have hpos : s.state.remaining ≠ 0 := fun h => hs (BootState.remaining_eq_zero.mp h)
      obtain ⟨k, hk⟩ := Nat.exists_eq_succ_of_ne_zero hpos
      rw [hk, Boot.steps_succ hs, Boot.steps_succ hs, bind_apply, bind_apply]
      cases hstep : Boot.step s with
      | error e t => rfl
      | ok a t =>
        have hnext : t.state.remaining = k := by
          rw [(Boot.step_eq_ok hstep).2, BootState.remaining_next, hk, Nat.succ_sub_one]
        change Boot.steps n t = Boot.steps k t
        rw [← hnext]
        exact ih (by omega)

/-! ## What a reached session has -/

/-- The first step that succeeds is the one past the first state. -/
theorem Reached.passed_detect (h : Reached s₀ s) (hstart : s₀.state = .detect)
    (hs : s.state ≠ .detect) : Passed s₀ .detect s₀ s := by
  induction h with
  | start => exact absurd hstart hs
  | @step s t a hreached hstep ih =>
    obtain ⟨rfl, hnext⟩ := Boot.step_eq_ok hstep
    by_cases hdetect : s.state = .detect
    · have hfirst : s = s₀ := by
        cases hreached with
        | start => rfl
        | step _ hbefore =>
          rw [(Boot.step_eq_ok hbefore).2] at hdetect
          exact absurd hdetect (BootState.next_ne_detect _)
      subst hfirst
      exact ⟨⟨0, rfl⟩, hstart, hstart ▸ hnext, 0, rfl⟩
    · have hpassed := ih hdetect
      obtain ⟨n, hn⟩ := hpassed.after
      exact ⟨hpassed.before, hstart, hpassed.stepped, n + 1, by rw [afterSteps_succ, ← hn]⟩

theorem Reached.passed {world : World φ} {memory : μ} {config : BootConfig}
    (h : Reached (Session.start world memory config) s) (state : BootState) (hstate : state ≠ .transfer)
    (hfrom : s.state.IsFrom state.next) :
    ∃ d, Passed (Session.start world memory config) state d s := by
  obtain ⟨n, rfl, -⟩ := h.afterSteps
  refine exists_passed ?_ n ?_
  · change state.remaining ≤ 8
    cases state <;> decide
  · have hpos : state.remaining ≠ 0 := fun h => hstate (BootState.remaining_eq_zero.mp h)
    rw [BootState.IsFrom, BootState.remaining_next] at hfrom
    omega

theorem bound_of_passed (h : Passed s₀ .detect s₀ s) :
    ∃ p q, s₀.config.platform = some p ∧ s.context.platform = some p ∧
      Host.active s.world = .ok q s.world ∧ q.id = p.id ∧ q = s₀.world.machine.bound.getD p := by
  obtain ⟨t, hok, hstepped⟩ := h.action (by decide)
  have hplatform := h.left hok writtenBy_platform
  obtain ⟨p, f, hconfig, hpublish, hbonded, hcontext⟩ :=
    Boot.detect_eq_ok lenient_bonded.toQuiet hok
  obtain ⟨q, hbound, hid, hq⟩ := Host.publish_eq_ok hpublish
  refine ⟨p, q, hconfig, by rw [hplatform, hcontext]; rfl, ?_, hid, ?_⟩
  · have hlater : World.Bonded s₀.stepped.world s.world := h.world lenient_bonded
    rw [hstepped] at hlater
    rw [Host.active, get_bind, hlater q (hbonded q hbound)]
    rfl
  · rw [← hq]
    exact congrArg (·.getD p) (World.bound_say s₀.world _)

theorem mapBuffer_of_step (h : Boot.step s = .ok a t)
    (hs : s.mapBuffer.isSome ↔ s.state = .terminateFirmwareServices) :
    t.mapBuffer.isSome ↔ t.state = .terminateFirmwareServices := by
  obtain ⟨u, haction, rfl⟩ := Boot.action_of_step_ok h
  by_cases hacquire : s.state = .acquireMemoryMap
  · rw [hacquire] at haction
    obtain ⟨_, _, _, _, -, -, -, -, hbuffer⟩ := Boot.acquireMemoryMap_eq_ok haction
    exact ⟨fun _ => by rw [hacquire]; rfl, fun _ => hbuffer⟩
  · by_cases hterminate : s.state = .terminateFirmwareServices
    · rw [hterminate] at haction ⊢
      obtain ⟨-, hbuffer⟩ := Boot.terminateFirmwareServices_eq_ok haction
      simp [hbuffer, BootState.next]
    · have hsame := congrArg Prod.snd ((Boot.besides_action (φ := φ) (μ := μ) s.state).of_ok haction)
      have hbuffer : u.mapBuffer = s.mapBuffer := by
        cases hstate : s.state <;> rw [hstate] at hsame <;>
          first | exact hsame | exact absurd hstate hacquire | exact absurd hstate hterminate
      have hnext : s.state.next ≠ .terminateFirmwareServices := by
        cases hstate : s.state <;> simp_all [BootState.next]
      simp only [hbuffer, hs, hterminate, hnext]

theorem Reached.prepared {world : World φ} {memory : μ} {config : BootConfig}
    (h : Reached (Session.start world memory config) s) :
    Prepared (Session.start world memory config) s where
  platform hfrom :=
    bound_of_passed (h.passed_detect rfl (BootState.isFrom_earlyArchInit.mp hfrom))
  bootCpu hfrom := by
    obtain ⟨d, hd⟩ := h.passed .acquireMemoryMap (by decide) hfrom
    obtain ⟨t, hok, -⟩ := hd.action (by decide)
    have hleft := hd.left hok writtenBy_bootCpu
    obtain ⟨_, _, cpu, _, -, -, -, hcpu, -⟩ := Boot.acquireMemoryMap_eq_ok hok
    rw [hleft, hcpu]
    rfl
  mapBuffer := by
    induction h with
    | start => simp [Session.start]
    | step _ hstep ih => exact mapBuffer_of_step hstep ih
  memoryMap hfrom := by
    obtain ⟨d, hd⟩ := h.passed .terminateFirmwareServices (by decide) hfrom
    obtain ⟨t, hok, -⟩ := hd.action (by decide)
    have hleft := hd.left hok writtenBy_memoryMap
    rw [hleft]
    exact (Boot.terminateFirmwareServices_eq_ok hok).1
  entry hfrom := by
    obtain ⟨d, hd⟩ := h.passed .copyPayloads (by decide) hfrom
    obtain ⟨t, hok, -⟩ := hd.action (by decide)
    have hleft := hd.left hok writtenBy_entry
    obtain ⟨entry, -, -, -, hentry⟩ := Boot.entry_of_copyPayloads hok
    rw [hleft, hentry]
    rfl

/-- A step from a reached session fails with what its state risks, if it fails. -/
theorem Reached.risks {world : World φ} {memory : μ} {config : BootConfig} {e : BootError}
    (h : Reached (Session.start world memory config) s) (hstep : Boot.step s = .error e t) :
    s.state.Risks e := by
  refine Boot.risks_of_step (fun hdetect => ?_) (fun hterminate => ?_) hstep
  · obtain ⟨p, -, -, hplatform, -⟩ :=
      h.prepared.platform (BootState.isFrom_earlyArchInit.mpr hdetect)
    rw [Located, hplatform]
    rfl
  · exact h.prepared.mapBuffer.mpr hterminate

/-- However the firmware, the hooks and the memory answer, each state that is reached has what it
needs. So a whole boot is never out of order, takes at most eight steps, and if it succeeds enters
the hypervisor with all that was gathered. From there no step leads on. -/
theorem reached_has_what_it_needs (world : World φ) (memory : μ) (config : BootConfig) :
    (∀ s, Reached (start world memory config) s → Prepared (start world memory config) s) ∧
    (∀ e s, Boot.runUntilTransfer (start world memory config) = .error e s →
      ∀ state, e ≠ .outOfOrder state) ∧
    ((∃ n ≤ 8, final (Boot.runUntilTransfer (start world memory config)) =
        (start world memory config).afterSteps n) ∧
      ∀ n, 8 ≤ n → Boot.steps n (start world memory config) =
        Boot.runUntilTransfer (start world memory config)) ∧
    (∀ s, Boot.runUntilTransfer (start world memory config) = .ok () s →
      s.state = .transfer ∧ ∃ p entry cpu map, config.platform = some p ∧
        s.context.entry = some entry ∧ s.context.bootCpu = some cpu ∧
        s.context.memoryMap = some map ∧ s.context.handoffParams =
          ⟨cpu, s.context.contextPointer.word, s.context.systemTable.word⟩ ∧
        s.transfer = s.enter p entry) ∧
    ∀ s : Session φ μ, s.state = .transfer → Boot.step s = .error (.outOfOrder .transfer)
      { s with world := s.world.say ⟨.debug, "boot_handoff::sequencer",
        s!"Boot state: {s.state.inspect}"⟩ } := by
  refine ⟨fun s hs => hs.prepared, fun e s hrun => ?_, ⟨?_, fun n hn => steps_of_remaining_le hn⟩,
    fun s hrun => ?_, fun s hs => ?_⟩
  · obtain ⟨u, hu, hne, hstep⟩ := reached_of_steps_error hrun
    exact (hu.risks hstep).ne_outOfOrder hne
  · cases hrun : Boot.runUntilTransfer (start world memory config) with
    | ok _ s =>
      obtain ⟨n, hn, hsum⟩ := (reached_of_steps hrun).afterSteps
      exact ⟨n, Nat.le.intro hsum, hn⟩
    | error e s =>
      obtain ⟨u, hu, hne, hstep⟩ := reached_of_steps_error hrun
      obtain ⟨n, rfl, hsum⟩ := hu.afterSteps
      have hpos : ((start world memory config).afterSteps n).state.remaining ≠ 0 := fun h =>
        hne (BootState.remaining_eq_zero.mp h)
      have hsum : n + _ = 8 := hsum
      refine ⟨n + 1, by omega, ?_⟩
      rw [afterSteps_succ, stepped, hstep]
      rfl
  · obtain ⟨-, -, hstate⟩ := Boot.runUntilTransfer_eq_ok hrun
    have hprepared := (reached_of_steps hrun).prepared
    obtain ⟨p, -, hconfig, hplatform, -⟩ := hprepared.platform (by rw [hstate]; decide)
    obtain ⟨cpu, hcpu⟩ := Option.isSome_iff_exists.mp (hprepared.bootCpu (by rw [hstate]; decide))
    obtain ⟨map, hmap⟩ := Option.isSome_iff_exists.mp (hprepared.memoryMap (by rw [hstate]; decide))
    obtain ⟨entry, hentry⟩ := Option.isSome_iff_exists.mp (hprepared.entry (by rw [hstate]; decide))
    refine ⟨hstate, p, entry, cpu, map, hconfig, hentry, hcpu, hmap, ?_,
      transfer_of_known hstate hplatform hentry⟩
    rw [BootContext.handoffParams, hcpu]
    rfl
  · have haction : Boot.action s.state s.announced = .error (.outOfOrder .transfer) s.announced := by
      rw [hs]
      rfl
    exact Boot.step_of_error haction

end Session

end BootLoader
