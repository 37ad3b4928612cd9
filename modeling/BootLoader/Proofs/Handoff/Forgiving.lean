import BootLoader.Proofs.Handoff.Integrity

/-! What becomes of a boot whose kernel cannot be placed. Under the policy that skips such a kernel
the boot goes on without an image that is refused, but a plain payload that has no memory at its
place ends it all the same. -/

namespace BootLoader

variable {φ : Type}

/-- A plain payload with bytes, and no memory at their place. -/
structure Payload.Homeless (p : Payload) (m : Memory) : Prop where
  format : p.format = .raw
  size : p.bytes.size ≠ 0
  unmapped : m.isMapped p.load p.bytes.size = false

namespace Boot

theorem bind_pure_eq_error {ε σ α β : Type} {x : EStateM ε σ α} {f : α → β} {s t : σ} {e : ε}
    (h : (x >>= fun a => pure (f a)) s = .error e t) : x s = .error e t := by
  rw [bind_apply] at h
  cases hx : x s with
  | ok a u =>
    rw [hx] at h
    cases h
  | error e' u =>
    rw [hx] at h
    cases h
    rfl

variable [Firmware φ] {p kernel : Payload} {s t u v : Session φ Memory} {e : BootError}

theorem place_of_raw (h : p.format = .raw) (s : Session φ Memory) :
    ∃ w, place p s = (inMemory .memory (.update id fun m => Mapping.copy m p.load p.bytes) >>=
      fun _ => pure p.load) { s with world := w } := by
  rw [place, say, modify_bind, h]
  exact ⟨_, rfl⟩

theorem place_of_pe (h : p.format = .pe) (s : Session φ Memory) :
    ∃ w, place p s = (inMemory (.payload p.role) (Pe.load p.bytes p.load) >>=
      fun l => pure l.entry) { s with world := w } := by
  rw [place, say, modify_bind, h]
  exact ⟨_, rfl⟩

/-- A placement fails where an image is refused, or a plain payload has no memory at its place. -/
theorem place_eq_error (h : place p s = .error e t) :
    (∃ cause, e = .payload p.role cause) ∨
      p.Homeless s.memory ∧ e = .memory (.unmapped p.load p.bytes.size) := by
  cases hformat : p.format with
  | pe =>
    obtain ⟨w, hplace⟩ := place_of_pe hformat s
    rw [hplace] at h
    obtain ⟨cause, -, he⟩ := inMemory_eq_error (bind_pure_eq_error h)
    exact .inl ⟨cause, he⟩
  | raw =>
    obtain ⟨w, hplace⟩ := place_of_raw hformat s
    rw [hplace] at h
    obtain ⟨cause, hcopy, he⟩ := inMemory_eq_error (bind_pure_eq_error h)
    rw [Task.run_update_id] at hcopy
    obtain ⟨hcause, hsize, hunmapped, -⟩ := Mapping.copy_eq_error hcopy
    exact .inr ⟨⟨hformat, hsize, hunmapped⟩, by rw [he, hcause]⟩

theorem place_of_homeless (h : p.Homeless s.memory) :
    ∃ t, place p s = .error (.memory (.unmapped p.load p.bytes.size)) t := by
  obtain ⟨w, hplace⟩ := place_of_raw h.format s
  have hcopy := (Task.run_update_id (fun m => Mapping.copy m p.load p.bytes) s.memory).trans
    (congrArg Prod.fst (Mapping.copy_of_unmapped h.size h.unmapped))
  obtain ⟨t, ht⟩ := inMemory_of_error (s := { s with world := w }) .memory hcopy
  exact ⟨t, hplace.trans (bind_of_error ht)⟩

/-- An image whose headers do not hold together is refused. -/
theorem place_of_unparsed {cause : Pe.PeError} (hformat : p.format = .pe)
    (hparse : Pe.Image.parse p.bytes = .error cause) (s : Session φ Memory) :
    ∃ t, place p s = .error (.payload p.role cause) t := by
  obtain ⟨w, hplace⟩ := place_of_pe hformat s
  have hload : ((Pe.load p.bytes p.load).run s.memory).1.result = .error cause := by
    rw [Task.run, Pe.load_of_parse_error hparse]
  obtain ⟨t, ht⟩ := inMemory_of_error (s := { s with world := w }) (.payload p.role) hload
  exact ⟨t, hplace.trans (bind_of_error ht)⟩

/-! ## The kernel -/

/-- A kernel that has its place is entered there. -/
theorem placeKernel_of_ok {a : Address} (h : place kernel (recorded .placeKernel s) = .ok a t) :
    placeKernel kernel s = .ok () { t with context := { t.context with kernelEntry := some a } } := by
  rw [placeKernel, bind_of_ok (record_apply .placeKernel s), bind_of_ok (attempt_of_ok h)]
  rfl

/-- An image that is refused leaves a boot without a kernel. -/
theorem placeKernel_of_refused {role : PayloadRole} {cause : Pe.PeError}
    (hpolicy : s.config.kernelPolicy = .skip)
    (h : place kernel (recorded .placeKernel s) = .error (.payload role cause) t) :
    ∃ t', placeKernel kernel s = .ok () t' ∧ t'.context.kernelEntry = s.context.kernelEntry := by
  have hentry : t.context.kernelEntry = (recorded .placeKernel s).context.kernelEntry :=
    (keeps_kernelEntry_place kernel).of_error h
  have hconfig : t.config = (recorded .placeKernel s).config :=
    congrArg Setting.config (Session.setting_of_known
      ((keeps_place_known lenient_blind.toQuiet kernel).of_error h).2)
  rw [placeKernel, bind_of_ok (record_apply .placeKernel s), bind_of_ok (attempt_of_error h)]
  dsimp only
  have hforgiven : forgives t.config.kernelPolicy (.payload role cause) = true := by
    rw [hconfig]
    exact beq_iff_eq.mpr hpolicy
  rw [get_bind, if_pos hforgiven]
  exact ⟨_, rfl, hentry⟩

theorem placeKernel_of_homeless (h : kernel.Homeless s.memory) :
    ∃ t, placeKernel kernel s = .error (.memory (.unmapped kernel.load kernel.bytes.size)) t := by
  obtain ⟨t, ht⟩ := place_of_homeless (s := recorded .placeKernel s) h
  refine ⟨t, ?_⟩
  rw [placeKernel, bind_of_ok (record_apply .placeKernel s), bind_of_ok (attempt_of_error ht)]
  rfl

theorem placeKernel_of_skip (hpolicy : s.config.kernelPolicy = .skip)
    (hentry : s.context.kernelEntry = none) (hhome : ¬ kernel.Homeless s.memory) :
    ∃ t, placeKernel kernel s = .ok () t ∧ ∀ a, t.context.kernelEntry = some a ↔
      ∃ w, place kernel (recorded .placeKernel s) = .ok a w := by
  cases hplace : place kernel (recorded .placeKernel s) with
  | ok b t =>
    refine ⟨_, placeKernel_of_ok hplace, fun a => ?_⟩
    change some b = some a ↔ _
    rw [Option.some.injEq]
    exact ⟨fun h => ⟨t, by rw [h]⟩, fun ⟨_, h⟩ => (EStateM.Result.ok.inj h).1⟩
  | error e t =>
    rcases place_eq_error hplace with ⟨cause, rfl⟩ | ⟨hhomeless, -⟩
    · obtain ⟨t', ht, hsame⟩ := placeKernel_of_refused hpolicy hplace
      refine ⟨t', ht, fun a => ?_⟩
      rw [hsame, hentry]
      constructor
      · exact nofun
      · rintro ⟨_, h⟩
        cases h
    · exact absurd hhomeless hhome

def entered (a : Address) (s : Session φ Memory) : Session φ Memory :=
  { s with context := { s.context with entry := some a } }

/-- Once the hypervisor has its place it is the kernel's turn. -/
theorem copyPayloads_of_placed {entry : Address} (hkernel : s.config.kernel = some kernel)
    (hclear : clear .preparation s = .ok () u)
    (hplace : place s.config.hypervisor (recorded .placeHypervisor u) = .ok entry v) :
    copyPayloads s = placeKernel kernel (entered entry v) := by
  have hconfig : u.config = s.config := congrArg Setting.config (Session.setting_of_known
    ((keeps_clear_known lenient_blind.toPatient .preparation).of_ok hclear).2)
  rw [copyPayloads, bind_of_ok hclear, get_bind, bind_of_ok (record_apply .placeHypervisor u), hconfig,
    bind_of_ok hplace, hkernel]
  rfl

/-- Neither the preparation nor the hypervisor's placement decides about the kernel. -/
theorem kernel_undecided {entry : Address} (hclear : clear .preparation s = .ok () u)
    (hplace : place p (recorded .placeHypervisor u) = .ok entry v) :
    v.config = s.config ∧ v.context.kernelEntry = s.context.kernelEntry := by
  have hcleared := (keeps_clear_known (lenient_blind (φ := φ)).toPatient .preparation).of_ok hclear
  have hplaced := (keeps_place_known (lenient_blind (φ := φ)).toQuiet p).of_ok hplace
  have hentry := (keeps_kernelEntry_clear .preparation).of_ok hclear
  have hentry' := (keeps_kernelEntry_place p).of_ok hplace
  have hsetting := (Session.setting_of_known hplaced.2).trans (Session.setting_of_known hcleared.2)
  exact ⟨congrArg Setting.config hsetting, hentry'.trans hentry⟩

/-- With the hypervisor in its place, the step fails if the kernel is homeless and goes on
otherwise. -/
theorem step_of_placed {entry : Address} (hstate : s.state = .copyPayloads)
    (hpolicy : s.config.kernelPolicy = .skip) (hkernel : s.config.kernel = some kernel)
    (hentry : s.context.kernelEntry = none) (hclear : clear .preparation s.announced = .ok () u)
    (hplace : place s.config.hypervisor (recorded .placeHypervisor u) = .ok entry v) :
    (¬ kernel.Homeless v.memory → ∃ t, step s = .ok .archPreJumpFixup t ∧
      ∀ a, t.context.kernelEntry = some a ↔
        ∃ w, place kernel (recorded .placeKernel (entered entry v)) = .ok a w) ∧
    (kernel.Homeless v.memory →
      ∃ t, step s = .error (.memory (.unmapped kernel.load kernel.bytes.size)) t) := by
  obtain ⟨hconfig, hsame⟩ := kernel_undecided hclear hplace
  have hcopies := copyPayloads_of_placed (s := s.announced) hkernel hclear hplace
  have haction : action s.state s.announced = placeKernel kernel (entered entry v) := by
    rw [hstate]
    exact hcopies
  constructor
  · intro hhome
    have hskip : v.config.kernelPolicy = .skip := hconfig ▸ hpolicy
    have hnone : v.context.kernelEntry = none := hsame.trans hentry
    obtain ⟨t, ht, hiff⟩ := placeKernel_of_skip (s := entered entry v) hskip hnone hhome
    have hstep := step_of_ok (haction.trans ht)
    rw [hstate] at hstep
    exact ⟨_, hstep, hiff⟩
  · intro hhomeless
    obtain ⟨t, ht⟩ := placeKernel_of_homeless (s := entered entry v) hhomeless
    exact ⟨t, step_of_error (haction.trans ht)⟩

/-! ## Before the copies -/

theorem fails_placeKernel (kernel : Payload) :
    Fails (Same fun s : Session φ Memory => s.context.kernelEntry) (placeKernel kernel) := by
  refine Fails.bind (fun _ => rfl) fun _ => ?_
  refine Fails.bind (keeps_attempt (keeps_kernelEntry_place kernel)) fun placed => ?_
  cases placed with
  | ok entry =>
    intro s e t h
    cases h
  | error e =>
    apply Keeps.fails
    refine Keeps.bind Keeps.get fun s => ?_
    split
    · exact fun _ => rfl
    · exact Keeps.throw e

/-- Copies that fail have given no kernel an entry. -/
theorem fails_copyPayloads :
    Fails (Same fun s : Session φ Memory => s.context.kernelEntry) copyPayloads := by
  refine Fails.bind (keeps_kernelEntry_clear _) fun _ => ?_
  refine Fails.bind Keeps.get fun s => ?_
  refine Fails.bind (fun _ => rfl) fun _ => ?_
  refine Fails.bind (keeps_kernelEntry_place _) fun entry => ?_
  refine Fails.bind (fun _ => rfl) fun _ => ?_
  cases s.config.kernel with
  | none => exact (Keeps.pure ()).fails
  | some kernel => exact fails_placeKernel kernel

end Boot

namespace Session

variable [Firmware φ] {kernel : Payload} {s u v : Session φ Memory}

theorem kernelEntry_stepped (h : s.state.isLate = false → s.context.kernelEntry = none)
    (hearly : s.stepped.state.isLate = false) : s.stepped.context.kernelEntry = none := by
  -- only the copies give an entry, and only where they lead on to a late state
  cases hs : s.state with
  | detect =>
    have hnone := h (by rw [hs]; rfl)
    rcases stepped_of_detect lenient_blind.toQuiet hs with
      ⟨w, -, hstay | ⟨p, f, c, -, -, -, ⟨-, -, hok⟩ | herror⟩⟩
    · rw [hstay]
      exact hnone
    · rw [hok]
      exact hnone
    · rw [herror]
      exact hnone
  | copyPayloads =>
    rcases s.stepped_cases with ⟨t, -, hok⟩ | ⟨e, herror⟩
    · rw [hok, hs] at hearly
      cases hearly
    · rw [hs] at herror
      exact (Boot.fails_copyPayloads _ _ _ herror).trans (h (by rw [hs]; rfl))
  | archPreJumpFixup =>
    have hsetting := setting_of_action (s := s) (by rw [hs]; exact nofun)
    rcases s.stepped_cases with ⟨t, -, hok⟩ | ⟨e, herror⟩
    · rw [hok, hs] at hearly
      cases hearly
    · rw [herror] at hsetting
      have hstate : s.stepped.state = s.state := congrArg Setting.state hsetting
      rw [hstate, hs] at hearly
      cases hearly
  | _ =>
    have hquiet : s.state.isQuiet = true := by rw [hs]; rfl
    have hkeeps := Boot.keeps_action (φ := φ) (μ := Memory) lenient_blind hquiet
    rcases s.stepped_cases with ⟨t, hok, hstepped⟩ | ⟨e, herror⟩
    · have hentry : t.context.kernelEntry = s.context.kernelEntry :=
        kernelEntry_of_ground (hkeeps.of_ok hok).2
      rw [hstepped] at hearly ⊢
      exact hentry.trans (h ((BootState.isLate_next hquiet).symm.trans hearly))
    · have hground := (hkeeps.of_error herror).2
      have hstate : s.stepped.state = s.state := congrArg Setting.state (setting_of_ground hground)
      rw [hstate] at hearly
      exact (kernelEntry_of_ground hground).trans (h hearly)

/-- Until the copies are made, no kernel has an entry. -/
theorem kernelEntry_afterSteps (world : World φ) (memory : Memory) (config : BootConfig) (n : Nat) :
    ((start world memory config).afterSteps n).state.isLate = false →
      ((start world memory config).afterSteps n).context.kernelEntry = none :=
  afterSteps_induction (I := fun s => s.state.isLate = false → s.context.kernelEntry = none)
    (fun _ h => kernelEntry_stepped h) (fun _ => rfl) n

/-- Under the policy that skips it, a kernel that cannot be placed ends the boot in one case only.
In every other the boot goes on, with an entry for the kernel just if that has its place. -/
theorem step_of_skip {world : World φ} {memory : Memory} {config : BootConfig} {n : Nat}
    {entry : Address} (hreached : (start world memory config).afterSteps n = s)
    (hstate : s.state = .copyPayloads) (hpolicy : s.config.kernelPolicy = .skip)
    (hkernel : s.config.kernel = some kernel) (hclear : Boot.clear .preparation s.announced = .ok () u)
    (hplace : Boot.place s.config.hypervisor (Boot.recorded .placeHypervisor u) = .ok entry v) :
    (¬ kernel.Homeless v.memory → ∃ t, Boot.step s = .ok .archPreJumpFixup t ∧
      ∀ a, t.context.kernelEntry = some a ↔
        ∃ w, Boot.place kernel (Boot.recorded .placeKernel (Boot.entered entry v)) = .ok a w) ∧
    (kernel.Homeless v.memory →
      ∃ t, Boot.step s = .error (.memory (.unmapped kernel.load kernel.bytes.size)) t) := by
  have hentry : s.context.kernelEntry = none := by
    rw [← hreached]
    apply kernelEntry_afterSteps
    rw [hreached, hstate]
    rfl
  exact Boot.step_of_placed hstate hpolicy hkernel hentry hclear hplace

end Session

namespace Sample

def configWith (kernel : Payload) : BootConfig :=
  { config with
    hypervisor := ⟨.hypervisor, .ofList [1, 2], .ofNat 0x1000, .raw, .ofNat 0x3000⟩
    kernel := some kernel
    kernelPolicy := .skip }

/-- After six steps the payloads are to be copied. -/
def aboutToCopy (kernel : Payload) : Session ScriptedFirmware Memory :=
  (Session.start world memory (configWith kernel)).afterSteps 6

/-- Two bytes where there is memory for none. -/
def homeless : Payload := ⟨.kernel, .ofList [7, 8], .ofNat 0x5000, .raw, .ofNat 0x3100⟩

/-- The same two bytes, which are no image. -/
def refused : Payload := { homeless with format := .pe }

end Sample

namespace Session

open Sample Boot

theorem step_of_skip_sample : ∃ t, step (aboutToCopy refused) = .ok .archPreJumpFixup t ∧
    t.context.kernelEntry = none := by
  have hstate : (aboutToCopy refused).state = .copyPayloads := by decide +kernel
  have hpolicy : (aboutToCopy refused).config.kernelPolicy = .skip := by decide +kernel
  have hkernel : (aboutToCopy refused).config.kernel = some refused := by rfl
  obtain ⟨_, hclear⟩ := eq_ok_of_failure?
    (show failure? (clear .preparation (aboutToCopy refused).announced) = none by decide +kernel)
  obtain ⟨entry, hplace⟩ := eq_ok_of_failure?
    (show failure? (place (aboutToCopy refused).config.hypervisor (recorded .placeHypervisor
      (final (clear .preparation (aboutToCopy refused).announced)))) = none by decide +kernel)
  obtain ⟨t, hstep, hiff⟩ := (step_of_skip rfl hstate hpolicy hkernel hclear hplace).1
    fun h => nomatch h.format
  refine ⟨t, hstep, Option.eq_none_iff_forall_ne_some.mpr fun a ha => ?_⟩
  obtain ⟨w, hok⟩ := (hiff a).mp ha
  have hrefused := place_of_unparsed (p := refused) (φ := ScriptedFirmware) rfl
    (rfl : Pe.Image.parse refused.bytes = .error .badDosHeader)
  obtain ⟨_, herror⟩ := hrefused _
  cases hok.symm.trans herror

/-- A kernel that may be skipped ends the boot after the hypervisor is placed, for want of memory.
-/
theorem skip_ends_at_homeless :
    let r := runUntilTransfer (start Sample.world Sample.memory (configWith homeless))
    failure? r = some (.memory (.unmapped (.ofNat 0x5000) 2)) ∧ (final r).state = .copyPayloads ∧
      (final r).config.kernelPolicy = .skip ∧ (final r).context.entry.isSome := by
  decide +kernel

end Session

end BootLoader
