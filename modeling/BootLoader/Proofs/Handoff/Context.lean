import BootLoader.Proofs.Handoff.Order
import BootLoader.Proofs.Handoff.Settled

/-! What a boot gathers on its way. Each state writes a part of the context of its own, so what the
step past a state has left there is what any later state finds. -/

namespace BootLoader

variable {φ μ τ ε α : Type}

open Session

/-- The context without what a state writes there. -/
def BootContext.besides (c : BootContext) : BootState → BootContext
  | .detect => { c with platform := none, loaderImage := .empty, systemTable := .zero }
  | .diagnosticDump => { c with contextPointer := .zero }
  | .acquireMemoryMap => { c with bootCpu := none }
  | .terminateFirmwareServices => { c with memoryMap := none }
  | .copyPayloads => { c with entry := none, kernelEntry := none, bytesCleared := 0 }
  | .archPreJumpFixup => { c with bytesCleared := 0 }
  | .earlyArchInit | .generalArchInit | .transfer => c

namespace Session

def gathered (s : Session φ μ) : BootContext × Option MapBuffer := (s.context, s.mapBuffer)

/-- What a state has no part in. Two of them handle the buffer. -/
def besides (state : BootState) (s : Session φ μ) : BootContext × Option MapBuffer :=
  (s.context.besides state, match state with
    | .acquireMemoryMap | .terminateFirmwareServices => none
    | _ => s.mapBuffer)

end Session

namespace Boot

/-! ## One state -/

theorem besides_of_gathered {x : Boot φ μ α} (hx : Keeps (Same gathered) x) (state : BootState) :
    Keeps (Same (besides state)) x := by
  intro s
  obtain ⟨hcontext, hbuffer⟩ := Prod.mk.inj (hx s)
  simp only [Same, besides, hcontext, hbuffer]

theorem gathered_inWorld (wrap : ε → BootError) (x : Host φ ε α) :
    Keeps (Same gathered) (inWorld wrap x : Boot φ μ α) := by
  intro s
  unfold inWorld
  cases x s.world <;> rfl

theorem gathered_platform : Keeps (Same gathered) (platform : Boot φ μ Platform) := by
  refine Keeps.bind Keeps.get fun s => ?_
  split
  · exact Keeps.pure _
  · exact Keeps.throw _

theorem besides_onContext {f : BootContext → BootContext} {state : BootState}
    (hf : ∀ c, (f c).besides state = c.besides state) :
    Keeps (Same (besides state)) (onContext f : Boot φ μ Unit) :=
  Keeps.modify fun s => congrArg (·, _) (hf s.context)

variable [Firmware φ]

theorem gathered_inMemory (wrap : ε → BootError) (x : Task μ ε α) :
    Keeps (Same gathered) (inMemory wrap x : Boot φ μ α) := by
  intro s
  unfold inMemory
  dsimp only
  cases (x.run s.memory).1.result <;> rfl

theorem gathered_say (level : Level) (text : String) :
    Keeps (Same gathered) (say level text : Boot φ μ Unit) := Keeps.modify fun _ => rfl

omit [Firmware φ] in
theorem gathered_hook (p : Platform) (k : Hook) :
    Keeps (Same gathered) (hook p k : Boot φ μ Unit) := gathered_inWorld _ _

theorem gathered_generalInit : Keeps (Same gathered) (generalInit : Boot φ μ Unit) := by
  refine Keeps.bind gathered_platform fun p => ?_
  refine Keeps.bind (gathered_hook p .init) fun _ => ?_
  refine Keeps.bind (gathered_hook p .memoryInit) fun _ => ?_
  refine Keeps.bind (gathered_hook p .setupDirectMapping) fun _ => ?_
  refine Keeps.bind (gathered_hook p .serialInit) fun _ => ?_
  refine Keeps.bind (Keeps.modify fun _ => rfl) fun _ => Keeps.bind Keeps.get fun s => ?_
  induction overview s p with
  | nil => exact Keeps.pure ()
  | cons text texts ih => exact Keeps.bind (gathered_say .info text) fun _ => ih

theorem besides_detect : Keeps (Same (besides .detect)) (detect : Boot φ μ Unit) := by
  intro s
  rcases detect_cases (lenient_blind (φ := φ)).toQuiet s with
    ⟨e, w, -, hdetect⟩ | ⟨p, f, w, c, -, -, -, -, ⟨-, -, hdetect⟩ | ⟨e, hdetect⟩⟩
  all_goals
    rw [hdetect]
    rfl

/-- However the dump goes, the pointer is found. -/
theorem gathered_diagnosticDump [Mapping μ] (s : Session φ μ) :
    (final (diagnosticDump s)).gathered =
      ({ s.context with contextPointer := contextPointer (Firmware.entries s.world.firmware) },
        s.mapBuffer) := by
  unfold diagnosticDump
  rw [get_bind, onContext, modify_bind]
  split
  · rw [modify_bind]
    cases (Acpi.walk s.memory (Firmware.entries s.world.firmware)).result <;> rfl
  · rfl

theorem besides_diagnosticDump [Mapping μ] :
    Keeps (Same (besides .diagnosticDump)) (diagnosticDump : Boot φ μ Unit) := by
  intro s
  obtain ⟨hcontext, hbuffer⟩ := Prod.mk.inj (gathered_diagnosticDump s)
  simp only [Same, besides, BootContext.besides, hcontext, hbuffer]

theorem besides_acquireMemoryMap :
    Keeps (Same (besides .acquireMemoryMap)) (acquireMemoryMap : Boot φ μ Unit) := by
  refine Keeps.bind (besides_of_gathered gathered_platform _) fun p => ?_
  refine Keeps.bind (besides_of_gathered (gathered_inWorld _ _) _) fun _ => ?_
  refine Keeps.bind (besides_of_gathered (gathered_inWorld _ _) _) fun cpu => ?_
  refine Keeps.bind (Keeps.modify fun _ => rfl) fun _ => ?_
  refine Keeps.bind (besides_onContext fun _ => rfl) fun _ => ?_
  exact Keeps.bind (besides_of_gathered (gathered_inWorld _ _) _) fun _ => Keeps.modify fun _ => rfl

theorem besides_terminateFirmwareServices :
    Keeps (Same (besides .terminateFirmwareServices)) (terminateFirmwareServices : Boot φ μ Unit) := by
  have htake : Keeps (Same (besides .terminateFirmwareServices))
      (takeMapBuffer : Boot φ μ MapBuffer) := by
    intro s
    rw [takeMapBuffer_apply]
    cases s.mapBuffer <;> rfl
  refine Keeps.bind htake fun buffer => Keeps.bind (Keeps.modify fun _ => rfl) fun _ => ?_
  refine Keeps.bind (besides_of_gathered (gathered_inWorld _ _) _) fun _ => ?_
  refine Keeps.bind (besides_of_gathered (gathered_inWorld _ _) _) fun map => ?_
  exact Keeps.bind (Keeps.modify fun _ => rfl) fun _ => besides_onContext fun _ => rfl

variable [Mapping μ]

theorem besides_clear {state : BootState}
    (hstate : ∀ (c : BootContext) n, { c with bytesCleared := n }.besides state = c.besides state)
    (phase : ClearPhase) : Keeps (Same (besides state)) (clear phase : Boot φ μ Unit) := by
  refine Keeps.bind (besides_of_gathered gathered_platform _) fun p => Keeps.bind Keeps.get fun s => ?_
  refine Keeps.bind (Keeps.modify fun _ => rfl) fun _ => ?_
  exact Keeps.bind (besides_of_gathered (gathered_inMemory _ _) _) fun _ =>
    besides_onContext fun c => hstate c _

theorem gathered_place (p : Payload) : Keeps (Same gathered) (place p : Boot φ μ Address) := by
  refine Keeps.bind (Keeps.modify fun _ => rfl) fun _ => ?_
  split
  · exact Keeps.bind (gathered_inMemory _ _) fun _ => Keeps.pure _
  · exact Keeps.bind (gathered_inMemory _ _) fun _ => Keeps.pure _

theorem besides_placeKernel (kernel : Payload) :
    Keeps (Same (besides .copyPayloads)) (placeKernel kernel : Boot φ μ Unit) := by
  refine Keeps.bind (Keeps.modify fun _ => rfl) fun _ => ?_
  refine Keeps.bind (keeps_attempt (besides_of_gathered (gathered_place kernel) _)) fun placed => ?_
  cases placed with
  | ok entry => exact besides_onContext fun _ => rfl
  | error e =>
    refine Keeps.bind Keeps.get fun s => ?_
    split
    · exact Keeps.modify fun _ => rfl
    · exact Keeps.throw e

theorem besides_copyPayloads :
    Keeps (Same (besides .copyPayloads)) (copyPayloads : Boot φ μ Unit) := by
  refine Keeps.bind (besides_clear (fun _ _ => rfl) _) fun _ => Keeps.bind Keeps.get fun s => ?_
  refine Keeps.bind (Keeps.modify fun _ => rfl) fun _ => ?_
  refine Keeps.bind (besides_of_gathered (gathered_place _) _) fun entry => ?_
  refine Keeps.bind (besides_onContext fun _ => rfl) fun _ => ?_
  split
  · exact besides_placeKernel _
  · exact Keeps.pure ()

theorem besides_preJumpFixup :
    Keeps (Same (besides .archPreJumpFixup)) (preJumpFixup : Boot φ μ Unit) := by
  refine Keeps.bind (besides_clear (fun _ _ => rfl) _) fun _ => ?_
  refine Keeps.bind (besides_of_gathered gathered_platform _) fun p => ?_
  exact Keeps.bind (besides_of_gathered (gathered_hook p _) _) fun _ => Keeps.modify fun _ => rfl

/-- A state keeps to its own part. -/
theorem besides_action (state : BootState) :
    Keeps (Same (besides state)) (action state : Boot φ μ Unit) := by
  cases state with
  | detect => exact besides_detect
  | earlyArchInit =>
    exact besides_of_gathered (Keeps.bind gathered_platform fun p => gathered_hook p _) _
  | generalArchInit => exact besides_of_gathered gathered_generalInit _
  | diagnosticDump => exact besides_diagnosticDump
  | acquireMemoryMap => exact besides_acquireMemoryMap
  | terminateFirmwareServices => exact besides_terminateFirmwareServices
  | copyPayloads => exact besides_copyPayloads
  | archPreJumpFixup => exact besides_preJumpFixup
  | transfer => exact Keeps.throw _

end Boot

/-! ## Step by step -/

theorem BootState.next_ne {state : BootState} (h : state ≠ .transfer) : state.next ≠ state := by
  cases state <;> simp [next] at h ⊢

namespace Session

variable [Firmware φ] [Mapping μ] {s s₀ d : Session φ μ} {state writer : BootState}

theorem state_stepped (s : Session φ μ) :
    s.stepped.state = s.state ∨ s.stepped.state = s.state.next := by
  rcases s.stepped_cases with ⟨t, -, hstepped⟩ | ⟨e, herror⟩
  · exact .inr (by rw [hstepped])
  · exact .inl (state_of_step_error (Boot.step_of_error herror))

theorem remaining_stepped_le (s : Session φ μ) : s.stepped.state.remaining ≤ s.state.remaining := by
  rcases s.state_stepped with h | h <;> rw [h]
  rw [BootState.remaining_next]
  omega

/-- The world moves along with each step. -/
theorem world_afterSteps {R : World φ → World φ → Prop} [IsPreorder (World φ) R] (h : Lenient R)
    (s : Session φ μ) (n : Nat) : R s.world (s.afterSteps n).world := by
  refine afterSteps_induction (I := fun t => R s.world t.world) (fun t ht => ?_) (refl_of R _) n
  have hannounced : R s.world t.announced.world := trans_of R ht (h.say _ _)
  have hkeeps := Boot.keeps_action_along (μ := μ) h t.state
  rcases t.stepped_cases with ⟨u, hok, hstepped⟩ | ⟨e, herror⟩
  · rw [hstepped]
    exact trans_of R hannounced (hkeeps.of_ok hok).1
  · exact trans_of R hannounced (hkeeps.of_error herror).1

/-- What is to be booted stays, but for a kernel without bytes. -/
theorem admits_afterSteps (s : Session φ μ) (n : Nat) :
    Boot.Admits s.config (s.afterSteps n).config := by
  refine afterSteps_induction (I := fun t => Boot.Admits s.config t.config) (fun t ht => ?_)
    (.inl rfl) n
  suffices h : Boot.Admits t.config (final (Boot.action t.state t.announced)).config by
    refine ht.trans ?_
    rcases t.stepped_cases with ⟨u, hok, hstepped⟩ | ⟨e, herror⟩
    · rw [hok] at h
      rwa [hstepped]
    · rwa [herror] at h
  by_cases hdetect : t.state = .detect
  · rw [hdetect]
    rcases Boot.detect_cases (lenient_blind (φ := φ)).toQuiet t.announced with
      ⟨e, w, -, h⟩ | ⟨p, f, w, c, -, -, -, hc, ⟨-, -, h⟩ | ⟨e, h⟩⟩
    · rw [Boot.action, h]
      exact .inl rfl
    all_goals
      rw [Boot.action, h]
      exact hc
  · have hsetting := (Boot.keeps_action_setting (μ := μ) (lenient_blind (φ := φ)) hdetect t.announced).2
    exact .inl (congrArg Setting.config hsetting)

theorem besides_stepped (s : Session φ μ) : s.stepped.besides s.state = s.besides s.state := by
  have hkeeps := Boot.besides_action (φ := φ) (μ := μ) s.state
  rcases s.stepped_cases with ⟨t, hok, hstepped⟩ | ⟨e, herror⟩
  · have hsame := hkeeps.of_ok hok
    rw [hstepped]
    exact hsame
  · have hsame := hkeeps.of_error herror
    exact hsame

/-! ## What has been passed -/

/-- The boot got past a state with the step from `d`, and came from there to `s`. -/
structure Passed (s₀ : Session φ μ) (state : BootState) (d s : Session φ μ) : Prop where
  before : ∃ n, d = s₀.afterSteps n
  was : d.state = state
  stepped : d.stepped.state = state.next
  after : ∃ n, s = d.stepped.afterSteps n

theorem exists_passed (hstart : state.remaining ≤ s₀.state.remaining) (n : Nat)
    (h : (s₀.afterSteps n).state.remaining < state.remaining) :
    ∃ d, Passed s₀ state d (s₀.afterSteps n) := by
  induction n with
  | zero => exact absurd hstart (Nat.not_le.mpr h)
  | succ n ih =>
    rw [afterSteps_succ] at h ⊢
    by_cases hbefore : (s₀.afterSteps n).state.remaining < state.remaining
    · obtain ⟨d, hd⟩ := ih hbefore
      obtain ⟨k, hk⟩ := hd.after
      exact ⟨d, hd.before, hd.was, hd.stepped, k + 1, by rw [afterSteps_succ, hk]⟩
    · -- the last of the steps is the one
      rcases (s₀.afterSteps n).state_stepped with hstay | hnext
      · rw [hstay] at h
        exact absurd h hbefore
      · rw [hnext, BootState.remaining_next] at h
        have hstate : (s₀.afterSteps n).state = state := BootState.remaining_inj.mp (by omega)
        exact ⟨s₀.afterSteps n, ⟨n, rfl⟩, hstate, hstate ▸ hnext, 0, rfl⟩

theorem Passed.action (h : Passed s₀ state d s) (hstate : state ≠ .transfer) :
    ∃ t, Boot.action state d.announced = .ok () t ∧ d.stepped = { t with state := state.next } := by
  have hd := h.was
  rcases d.stepped_cases with ⟨t, hok, hstepped⟩ | ⟨e, herror⟩
  · rw [hd] at hok hstepped
    exact ⟨t, hok, hstepped⟩
  · have hstay := (state_of_step_error (Boot.step_of_error herror)).trans hd
    exact absurd (h.stepped.symm.trans hstay) (BootState.next_ne hstate)

theorem Passed.world {R : World φ → World φ → Prop} [IsPreorder (World φ) R] (h : Passed s₀ state d s)
    (hR : Lenient R) : R d.stepped.world s.world := by
  obtain ⟨n, rfl⟩ := h.after
  exact world_afterSteps hR d.stepped n

/-! ## What is left in the context -/

/-- No state but `writer` has a part in what `look` shows. -/
def WrittenBy (writer : BootState) (look : BootContext → τ) : Prop :=
  ∀ state, state ≠ writer → ∀ c, look (c.besides state) = look c

variable {look : BootContext → τ}

theorem WrittenBy.stepped (h : WrittenBy writer look) (hs : s.state ≠ writer) :
    look s.stepped.context = look s.context :=
  calc look s.stepped.context = look (s.stepped.context.besides s.state) := (h _ hs _).symm
    _ = look (s.context.besides s.state) := congrArg (fun g => look g.1) s.besides_stepped
    _ = look s.context := h _ hs _

theorem WrittenBy.afterSteps (h : WrittenBy writer look)
    (hs : s.state.remaining < writer.remaining) (n : Nat) :
    look (s.afterSteps n).context = look s.context := by
  refine (afterSteps_induction (I := fun t => t.state.remaining < writer.remaining ∧
    look t.context = look s.context) (fun t ht => ?_) ⟨hs, rfl⟩ n).2
  obtain ⟨hremaining, hsame⟩ := ht
  have hne : t.state ≠ writer := fun h => by rw [h] at hremaining; omega
  exact ⟨by have := t.remaining_stepped_le; omega, (h.stepped hne).trans hsame⟩

/-- What the step past its writer left is there from then on. -/
theorem Passed.left (h : Passed s₀ writer d s) {t : Session φ μ}
    (hok : Boot.action writer d.announced = .ok () t) (hlook : WrittenBy writer look) :
    look s.context = look t.context := by
  obtain ⟨n, rfl⟩ := h.after
  have hwriter : writer ≠ .transfer := by
    rintro rfl
    cases hok
  have hpos : writer.remaining ≠ 0 := fun h => hwriter (BootState.remaining_eq_zero.mp h)
  have hstepped := stepped_of_ok (s := d) (t := t) (by rw [h.was]; exact hok)
  rw [hlook.afterSteps (by rw [h.stepped, BootState.remaining_next]; omega) n, hstepped]

/-- What an earlier state left was there in the step past a state. -/
theorem Passed.found (h : Passed s₀ state d s) (hwriter : state.remaining < writer.remaining)
    (hlook : WrittenBy writer look) : look d.context = look s.context := by
  obtain ⟨n, rfl⟩ := h.after
  rw [← afterSteps_one, ← afterSteps_add]
  exact (hlook.afterSteps (by rwa [h.was]) _).symm

theorem writtenBy_platform : WrittenBy .detect BootContext.platform := by
  intro state h c
  cases state <;> first | rfl | exact absurd rfl h

theorem writtenBy_systemTable : WrittenBy .detect BootContext.systemTable := by
  intro state h c
  cases state <;> first | rfl | exact absurd rfl h

theorem writtenBy_contextPointer : WrittenBy .diagnosticDump BootContext.contextPointer := by
  intro state h c
  cases state <;> first | rfl | exact absurd rfl h

theorem writtenBy_bootCpu : WrittenBy .acquireMemoryMap BootContext.bootCpu := by
  intro state h c
  cases state <;> first | rfl | exact absurd rfl h

theorem writtenBy_memoryMap : WrittenBy .terminateFirmwareServices BootContext.memoryMap := by
  intro state h c
  cases state <;> first | rfl | exact absurd rfl h

theorem writtenBy_entry : WrittenBy .copyPayloads BootContext.entry := by
  intro state h c
  cases state <;> first | rfl | exact absurd rfl h

end Session

end BootLoader
