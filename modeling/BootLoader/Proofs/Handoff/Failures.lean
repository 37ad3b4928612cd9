import BootLoader.Proofs.Handoff.Context

/-! What a boot can fail with, state by state. With the platform known, a state fails with an error
of its own; only a state that lacks what an earlier one was to gather is out of order. -/

namespace BootLoader

variable {φ μ ε α : Type}

/-- The failures of a state that has what it needs. -/
def BootState.Risks : BootState → BootError → Prop
  | .detect, e => (∃ cause, e = .config cause) ∨
      ∃ current requested, e = .platform (.alreadyBound current requested)
  | .earlyArchInit, e | .generalArchInit, e | .archPreJumpFixup, e => ∃ cause, e = .ofPlatform cause
  | .diagnosticDump, _ => False
  | .acquireMemoryMap, e => (∃ cause, e = .ofPlatform cause) ∨ ∃ cause, e = .firmware cause
  | .terminateFirmwareServices, e => ∃ cause, e = .firmware cause
  | .copyPayloads, e => (∃ region hit, e = .unsafeClear region hit) ∨ (∃ cause, e = .memory cause) ∨
      ∃ role cause, e = .payload role cause
  | .transfer, e => e = .outOfOrder .transfer

/-- A state that has what it needs is in order, but for the last one. -/
theorem BootState.Risks.ne_outOfOrder {state : BootState} {e : BootError} (h : state.Risks e)
    (hstate : state ≠ .transfer) (s : BootState) : e ≠ .outOfOrder s := by
  rintro rfl
  cases state <;> simp [Risks, BootError.ofPlatform] at h hstate
  all_goals
    obtain ⟨cause, h⟩ := h
    cases cause <;> simp at h

/-! ## A clear -/

namespace Platform

variable [Mapping μ]

theorem guarded_zeroAll (phase : ClearPhase) (rs : List Region) (cleared : Nat) :
    Guarded (fun _ => True) (fun e => ∃ cause, e = .memory cause)
      (zeroAll phase cleared rs : Task μ PlatformError Nat) := by
  have hupdate : ∀ {α : Type} (f : μ → Except MemoryError α × μ),
      Guarded (fun _ => True) (fun e => ∃ cause, e = .memory cause)
        (.update .memory f : Task μ PlatformError α) := by
    intro α f t _
    rw [Task.update_apply]
    rcases f t.state with ⟨cause | a, m⟩
    · exact ⟨cause, rfl⟩
    · trivial
  induction rs generalizing cleared with
  | nil => exact Guarded.pure _
  | cons r rs ih =>
    refine Guarded.bind (fun _ _ => trivial) fun _ => ?_
    exact Guarded.bind (Guarded.bind (hupdate _) fun _ => hupdate _) fun _ => ih _

/-- A clear refuses its plan, or comes upon memory that is not as it should be. -/
theorem clear_eq_error {p : Platform} {phase : ClearPhase} {guarded : List Region} {m : μ}
    {e : PlatformError} (h : ((p.clear phase guarded).run m).1.result = .error e) :
    (∃ r q, p.conflict? guarded (p.clearPlan phase) = some (r, q) ∧ e = .unsafeClear r q) ∨
      ∃ cause, e = .memory cause := by
  rw [clear_eq] at h
  cases hconflict : p.conflict? guarded (p.clearPlan phase) with
  | some hit =>
    rw [hconflict] at h
    cases h
    exact .inl ⟨hit.1, hit.2, rfl, rfl⟩
  | none =>
    rw [hconflict] at h
    dsimp only [Task.run] at h
    cases hrun : (zeroAll phase 0 (p.clearPlan phase) : Task μ PlatformError Nat) ⟨[], m⟩ with
    | ok n t =>
      rw [hrun] at h
      cases h
    | error e' t =>
      rw [hrun] at h
      cases h
      exact .inr ((guarded_zeroAll phase _ 0).of_error trivial hrun)

end Platform

theorem Host.publish_eq_error [Console φ] {p : Platform} {w f : World φ} {e : PlatformError}
    (h : publish p w = .error e f) : ∃ current, e = .alreadyBound current p.arch := by
  cases hbound : w.machine.bound with
  | none =>
    obtain ⟨line, hpublish⟩ := publish_of_unbound p hbound
    cases hpublish.symm.trans h
  | some q =>
    rw [publish_of_bound p hbound] at h
    split at h <;> cases h
    exact ⟨q.arch, rfl⟩

/-! ## The parts of a state -/

namespace Session

def Located (s : Session φ μ) : Prop := s.context.platform.isSome

end Session

open Session

namespace Boot

variable {E : BootError → Prop}

theorem guarded_of_gathered {x : Boot φ μ α} (hx : Keeps (Same gathered) x)
    (he : ∀ s e t, x s = .error e t → E e) : Guarded Located E x :=
  Guarded.of_keeps (P := fun g => g.1.platform.isSome) hx he

theorem guarded_platform : Guarded Located E (platform : Boot φ μ Platform) := by
  intro s hs
  obtain ⟨p, hp⟩ := Option.isSome_iff_exists.mp hs
  rw [platform_of_some hp]
  exact hs

theorem guarded_inWorld {wrap : ε → BootError} (h : ∀ cause, E (wrap cause)) (x : Host φ ε α) :
    Guarded Located E (inWorld wrap x : Boot φ μ α) := by
  refine guarded_of_gathered (gathered_inWorld wrap x) fun s e t he => ?_
  obtain ⟨cause, -, rfl⟩ := inWorld_eq_error he
  exact h cause

theorem guarded_hook (h : ∀ cause, E (.ofPlatform cause)) (p : Platform) (k : Hook) :
    Guarded Located E (hook p k : Boot φ μ Unit) := guarded_inWorld h _

variable [Firmware φ]

theorem guarded_say (level : Level) (text : String) :
    Guarded Located E (say level text : Boot φ μ Unit) := Guarded.modify fun _ hs => hs

variable [Mapping μ]

theorem guarded_clear (hrefused : ∀ r q, E (.unsafeClear r q)) (hmemory : ∀ cause, E (.memory cause))
    (phase : ClearPhase) : Guarded Located E (clear phase : Boot φ μ Unit) := by
  refine Guarded.bind guarded_platform fun p => Guarded.bind Guarded.get fun s => ?_
  refine Guarded.bind (Guarded.modify fun _ hs => hs) fun _ => ?_
  refine Guarded.bind ?_ fun _ => Guarded.modify fun _ hs => hs
  refine guarded_of_gathered (gathered_inMemory _ _) fun s e t he => ?_
  obtain ⟨cause, hcause, rfl⟩ := inMemory_eq_error he
  rcases Platform.clear_eq_error hcause with ⟨r, q, -, rfl⟩ | ⟨cause, rfl⟩
  · exact hrefused r q
  · exact hmemory cause

theorem guarded_place (hmemory : ∀ cause, E (.memory cause))
    (hpayload : ∀ role cause, E (.payload role cause)) (p : Payload) :
    Guarded Located E (place p : Boot φ μ Address) := by
  refine Guarded.bind (Guarded.modify fun _ hs => hs) fun _ => ?_
  split
  · refine Guarded.bind (guarded_of_gathered (gathered_inMemory _ _) fun s e t he => ?_) fun _ =>
      Guarded.pure _
    obtain ⟨cause, -, rfl⟩ := inMemory_eq_error he
    exact hmemory cause
  · refine Guarded.bind (guarded_of_gathered (gathered_inMemory _ _) fun s e t he => ?_) fun _ =>
      Guarded.pure _
    obtain ⟨cause, -, rfl⟩ := inMemory_eq_error he
    exact hpayload p.role cause

theorem guarded_placeKernel (hmemory : ∀ cause, E (.memory cause))
    (hpayload : ∀ role cause, E (.payload role cause)) (kernel : Payload) :
    Guarded Located E (placeKernel kernel : Boot φ μ Unit) := by
  refine Guarded.bind (Guarded.modify fun _ hs => hs) fun _ s hs => ?_
  have hplace := guarded_place (φ := φ) (μ := μ) hmemory hpayload kernel s hs
  have hsame := gathered_place (φ := φ) (μ := μ) kernel s
  cases h : place kernel s with
  | ok entry t =>
    rw [h] at hplace
    rw [bind_of_ok (attempt_of_ok h)]
    exact hplace
  | error e t =>
    rw [h] at hplace hsame
    have ht : Located t := by
      have hcontext : t.context = s.context := congrArg Prod.fst hsame
      rwa [Located, hcontext]
    rw [bind_of_ok (attempt_of_error h)]
    refine Guarded.bind Guarded.get (fun u => ?_) t ht
    split
    · exact guarded_say _ _
    · exact Guarded.throw hplace

/-! ## State by state -/

omit [Mapping μ] in
theorem guarded_generalInit (h : ∀ cause, E (.ofPlatform cause)) :
    Guarded Located E (generalInit : Boot φ μ Unit) := by
  refine Guarded.bind guarded_platform fun p => ?_
  refine Guarded.bind (guarded_hook h p .init) fun _ => ?_
  refine Guarded.bind (guarded_hook h p .memoryInit) fun _ => ?_
  refine Guarded.bind (guarded_hook h p .setupDirectMapping) fun _ => ?_
  refine Guarded.bind (guarded_hook h p .serialInit) fun _ => ?_
  refine Guarded.bind (Guarded.modify fun _ hs => hs) fun _ => Guarded.bind Guarded.get fun s => ?_
  induction overview s p with
  | nil => exact Guarded.pure ()
  | cons text texts ih => exact Guarded.bind (guarded_say .info text) fun _ => ih

theorem guarded_diagnosticDump : Guarded Located E (diagnosticDump : Boot φ μ Unit) := by
  refine Guarded.bind Guarded.get fun s => ?_
  refine Guarded.bind (Guarded.modify fun _ hs => hs) fun _ => ?_
  split
  · refine Guarded.bind (Guarded.modify fun _ hs => hs) fun _ => ?_
    split
    · exact Guarded.bind (guarded_say _ _) fun _ => Guarded.modify fun _ hs => hs
    · exact guarded_say _ _
  · exact guarded_say _ _

omit [Mapping μ] in
theorem guarded_acquireMemoryMap (hplatform : ∀ cause, E (.ofPlatform cause))
    (hfirmware : ∀ cause, E (.firmware cause)) :
    Guarded Located E (acquireMemoryMap : Boot φ μ Unit) := by
  refine Guarded.bind guarded_platform fun p => ?_
  refine Guarded.bind (guarded_inWorld hplatform _) fun _ => ?_
  refine Guarded.bind (guarded_inWorld hplatform _) fun cpu => ?_
  refine Guarded.bind (guarded_say _ _) fun _ => ?_
  refine Guarded.bind (Guarded.modify fun _ hs => hs) fun _ => ?_
  exact Guarded.bind (guarded_inWorld hfirmware _) fun _ => Guarded.modify fun _ hs => hs

def placePayloads : Boot φ μ Unit := do
  let config := (← get).config
  record (.writes .placeHypervisor)
  let entry ← place config.hypervisor
  onContext ({ · with entry := some entry })
  match config.kernel with
  | some kernel => placeKernel kernel
  | none => return

theorem copyPayloads_eq : (copyPayloads : Boot φ μ Unit) = (do clear .preparation; placePayloads) := rfl

theorem guarded_placePayloads (hmemory : ∀ cause, E (.memory cause))
    (hpayload : ∀ role cause, E (.payload role cause)) :
    Guarded Located E (placePayloads : Boot φ μ Unit) := by
  refine Guarded.bind Guarded.get fun s => Guarded.bind (Guarded.modify fun _ hs => hs) fun _ => ?_
  refine Guarded.bind (guarded_place hmemory hpayload _) fun entry => ?_
  refine Guarded.bind (Guarded.modify fun _ hs => hs) fun _ => ?_
  split
  · exact guarded_placeKernel hmemory hpayload _
  · exact Guarded.pure ()

theorem guarded_copyPayloads (hrefused : ∀ r q, E (.unsafeClear r q))
    (hmemory : ∀ cause, E (.memory cause)) (hpayload : ∀ role cause, E (.payload role cause)) :
    Guarded Located E (copyPayloads : Boot φ μ Unit) := by
  rw [copyPayloads_eq]
  exact Guarded.bind (guarded_clear hrefused hmemory _) fun _ => guarded_placePayloads hmemory hpayload

theorem guarded_preJumpFixup (h : ∀ cause, E (.ofPlatform cause)) :
    Guarded Located E (preJumpFixup : Boot φ μ Unit) := by
  have hclear := guarded_clear (φ := φ) (μ := μ) (fun r q => h (.unsafeClear r q))
    (fun cause => h (.memory cause)) .cleanup
  refine Guarded.bind hclear fun _ => Guarded.bind guarded_platform fun p => ?_
  exact Guarded.bind (guarded_hook h p _) fun _ => guarded_say _ _

theorem guarded_action {state : BootState} (hdetect : state ≠ .detect)
    (hterminate : state ≠ .terminateFirmwareServices) (htransfer : state ≠ .transfer) :
    Guarded Located state.Risks (action state : Boot φ μ Unit) := by
  cases state with
  | detect => exact absurd rfl hdetect
  | earlyArchInit => exact Guarded.bind guarded_platform fun p => guarded_hook (fun c => ⟨c, rfl⟩) p _
  | generalArchInit => exact guarded_generalInit fun c => ⟨c, rfl⟩
  | diagnosticDump => exact guarded_diagnosticDump
  | acquireMemoryMap =>
    exact guarded_acquireMemoryMap (fun c => .inl ⟨c, rfl⟩) fun c => .inr ⟨c, rfl⟩
  | terminateFirmwareServices => exact absurd rfl hterminate
  | copyPayloads =>
    exact guarded_copyPayloads (fun r q => .inl ⟨r, q, rfl⟩) (fun c => .inr (.inl ⟨c, rfl⟩))
      fun r c => .inr (.inr ⟨r, c, rfl⟩)
  | archPreJumpFixup => exact guarded_preJumpFixup fun c => ⟨c, rfl⟩
  | transfer => exact absurd rfl htransfer

omit [Mapping μ] in
theorem guarded_settle : Guarded Located (BootState.Risks .detect)
    (admitPayloads >>= fun _ => checkPlacement : Boot φ μ Unit) := by
  refine Guarded.bind ?_ fun _ => ?_
  · intro s hs
    rcases admitPayloads_cases (lenient_blind (φ := φ)).say s with
      ⟨cause, hadmitted⟩ | ⟨-, hadmitted⟩ | ⟨-, w, -, hadmitted⟩
    · rw [hadmitted]
      exact .inl ⟨cause, rfl⟩
    · rw [hadmitted]
      exact hs
    · rw [hadmitted]
      exact hs
  · refine Guarded.bind guarded_platform fun p => Guarded.bind Guarded.get fun s => ?_
    split
    · exact Guarded.pure ()
    · exact Guarded.throw (.inl ⟨_, rfl⟩)

variable {s t : Session φ μ} {e : BootError}

omit [Mapping μ] in
theorem risks_of_detect (h : detect s = .error e t) : BootState.Risks .detect e := by
  cases hp : s.config.platform with
  | none =>
    rw [detect, get_bind, hp] at h
    cases h
    exact .inl ⟨_, rfl⟩
  | some p =>
    cases hpublish : Host.publish p s.world with
    | error cause f =>
      obtain ⟨current, rfl⟩ := Host.publish_eq_error hpublish
      cases (detect_of_unpublished hp hpublish).symm.trans h
      exact .inr ⟨_, _, rfl⟩
    | ok _ f =>
      obtain ⟨line, hdetect⟩ := detect_of_publish hp (inWorld_of_ok hpublish)
      rw [hdetect] at h
      have hlocated : Located { s with
          world := f.say line, context := found s.context p f.firmware } := rfl
      exact guarded_settle.of_error hlocated h

omit [Mapping μ] in
theorem risks_of_terminate {buffer : MapBuffer} (hs : Located s) (hbuffer : s.mapBuffer = some buffer)
    (h : terminateFirmwareServices s = .error e t) :
    BootState.Risks .terminateFirmwareServices e := by
  have htake : takeMapBuffer s = .ok buffer { s with mapBuffer := none } := by
    rw [takeMapBuffer_apply, hbuffer]
  have hfirmware : ∀ cause, BootState.Risks .terminateFirmwareServices (.firmware cause) :=
    fun cause => ⟨cause, rfl⟩
  unfold terminateFirmwareServices at h
  rw [bind_of_ok htake] at h
  have hlocated : Located { s with mapBuffer := none } := hs
  refine Guarded.of_error ?_ hlocated h
  refine Guarded.bind (guarded_say _ _) fun _ => ?_
  refine Guarded.bind (guarded_inWorld hfirmware _) fun _ => ?_
  refine Guarded.bind (guarded_inWorld hfirmware _) fun map => ?_
  exact Guarded.bind (guarded_say _ _) fun _ => Guarded.modify fun _ hs => hs

/-- A step fails with what its state risks, where the boot has gathered what the state needs. -/
theorem risks_of_step (hlocated : s.state ≠ .detect → Located s)
    (hbuffer : s.state = .terminateFirmwareServices → s.mapBuffer.isSome)
    (h : step s = .error e t) : s.state.Risks e := by
  rcases s.stepped_cases with ⟨u, hok, -⟩ | ⟨e', herror⟩
  · rw [step_of_ok hok] at h
    cases h
  · rw [step_of_error herror] at h
    cases h
    by_cases hdetect : s.state = .detect
    · rw [hdetect] at herror ⊢
      exact risks_of_detect herror
    · by_cases hterminate : s.state = .terminateFirmwareServices
      · obtain ⟨buffer, hsome⟩ := Option.isSome_iff_exists.mp (hbuffer hterminate)
        have hs : Located s.announced := hlocated hdetect
        rw [hterminate] at herror ⊢
        exact risks_of_terminate hs hsome herror
      · by_cases htransfer : s.state = .transfer
        · rw [htransfer] at herror ⊢
          exact (EStateM.Result.error.inj herror).1.symm
        · have hs : Located s.announced := hlocated hdetect
          exact (guarded_action hdetect hterminate htransfer).of_error hs herror

end Boot

end BootLoader
