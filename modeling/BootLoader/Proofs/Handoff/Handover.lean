import BootLoader.Proofs.Handoff.Gains
import BootLoader.Proofs.Handoff.Integrity
import BootLoader.Uefi.Firmware

/-! What the hypervisor is entered with. Each of the words was found in a state of its own, and is
what the hypervisor gets when the boot has come to its end. -/

namespace BootLoader

variable {φ μ : Type}

namespace Session

variable [Firmware φ] [Mapping μ] {s₀ s : Session φ μ} {p : Platform} {entry : Address}
  {params : HandoffParams}

/-! ## The one transfer -/

theorem transfer_notMem_script {state : BootState} (h : state ≠ .transfer) (buffer : Region)
    (kernel : Bool) : Mark.hook .transfer ∉ state.script buffer kernel := by
  cases state <;> cases kernel <;> simp [BootState.script] at h ⊢

theorem exists_script (hs : s.state ≠ .transfer) : ∃ buffer kernel,
    Follows Session.marks (s.state.script buffer kernel) s (Boot.action s.state s) := by
  by_cases hacquire : s.state = .acquireMemoryMap
  · refine ⟨((final (Boot.acquireMemoryMap s)).mapBuffer.map (·.region)).getD .empty,
      s.config.kernel.isSome, Boot.follows_action s hs (fun _ b t ht hb => ?_) (fun h => ?_)
        fun _ => rfl⟩
    · rw [ht, final, hb]
      rfl
    · rw [hacquire] at h
      cases h
  · refine ⟨(s.mapBuffer.map (·.region)).getD .empty, s.config.kernel.isSome,
      Boot.follows_action s hs (fun h => absurd h hacquire) (fun _ b hb => ?_) fun _ => rfl⟩
    rw [hb]
    rfl

/-- No step enters the payload. -/
theorem transfer_notMem_stepped (s : Session φ μ) :
    ∃ new, s.stepped.marks = s.marks ++ new ∧ Mark.hook .transfer ∉ new := by
  by_cases hs : s.state = .transfer
  · have haction : Boot.action s.state s.announced = .error (.outOfOrder .transfer) s.announced := by
      rw [hs]
      rfl
    rw [stepped_of_error haction]
    exact ⟨[], (marks_announced s).trans (List.append_nil _).symm, List.not_mem_nil⟩
  · obtain ⟨buffer, kernel, hfollows⟩ := exists_script (s := s.announced) hs
    have habsent := transfer_notMem_script hs buffer kernel
    have hstep := Boot.follows_step hfollows
    unfold stepped
    cases h : Boot.step s with
    | ok a t =>
      rw [h] at hstep
      exact ⟨_, hstep, habsent⟩
    | error e t =>
      rw [h] at hstep
      obtain ⟨done, hdone, ht⟩ := hstep
      exact ⟨done, ht, fun hmem => habsent (hdone.subset hmem)⟩

theorem transfer_notMem_afterSteps (s : Session φ μ) (n : Nat) :
    ∃ new, (s.afterSteps n).marks = s.marks ++ new ∧ Mark.hook .transfer ∉ new := by
  refine afterSteps_induction
    (I := fun t => ∃ new, t.marks = s.marks ++ new ∧ Mark.hook .transfer ∉ new) ?_
    ⟨[], (List.append_nil _).symm, List.not_mem_nil⟩ n
  rintro t ⟨new, ht, hnew⟩
  obtain ⟨more, hmore, hnot⟩ := t.transfer_notMem_stepped
  exact ⟨new ++ more, by rw [hmore, ht, List.append_assoc], by simp [hnew, hnot]⟩

/-! ## Where the words come from -/

/-- What the hypervisor is entered with: each word was found in the step past the state that looks
for it. -/
structure Handover (s₀ s : Session φ μ) (p : Platform) (entry : Address) (params : HandoffParams) :
    Prop where
  platform : s₀.config.platform = some p
  entry : s₀.config.hypervisor.EntersAt entry
  /-- the answer of the hook -/
  cpu : ∃ d u v, Passed s₀ .acquireMemoryMap d s ∧
    Host.beforeExit p d.announced.world = .ok () u ∧ Host.bootCpu p u = .ok params.cpu v
  context : ∃ d a, Passed s₀ .diagnosticDump d s ∧
    PointsTo (Firmware.entries d.announced.world.firmware) a ∧ params.context = a.word
  secondary : ∃ d f, Passed s₀ .detect d s ∧ Host.publish p d.announced.world = .ok () f ∧
    params.secondary = (Firmware.systemTable f.firmware).word

theorem Handover.of_passed (hplatform : s.context.platform = some p)
    (hentry : s.context.entry = some entry)
    (hpassed : ∀ state, state ≠ .transfer → ∃ d, Passed s₀ state d s) :
    Handover s₀ s p entry s.context.handoffParams := by
  obtain ⟨d₁, hd₁⟩ := hpassed .detect (by decide)
  obtain ⟨t₁, hdetect, -⟩ := hd₁.action (by decide)
  obtain ⟨q, f, hconfig, hpublish, -, hfound⟩ :=
    Boot.detect_eq_ok (lenient_blind (φ := φ)).toQuiet hdetect
  have hq : some p = some q := by rw [← hplatform, hd₁.left hdetect writtenBy_platform, hfound]; rfl
  cases hq
  obtain ⟨d₂, hd₂⟩ := hpassed .diagnosticDump (by decide)
  obtain ⟨t₂, hdump, -⟩ := hd₂.action (by decide)
  obtain ⟨d₃, hd₃⟩ := hpassed .acquireMemoryMap (by decide)
  obtain ⟨t₃, hacquire, -⟩ := hd₃.action (by decide)
  obtain ⟨q, u, cpu, v, hsame, hbefore, hcpu, hset, -⟩ := Boot.acquireMemoryMap_eq_ok hacquire
  have hq : some p = some q := by
    rw [← hplatform, ← hd₃.found (by decide) writtenBy_platform, ← hsame]
    rfl
  cases hq
  obtain ⟨d₄, hd₄⟩ := hpassed .copyPayloads (by decide)
  obtain ⟨t₄, hcopies, -⟩ := hd₄.action (by decide)
  obtain ⟨a, _, _, hplace, hentered⟩ := Boot.entry_of_copyPayloads hcopies
  have ha : some entry = some a := by rw [← hentry, hd₄.left hcopies writtenBy_entry, hentered]
  cases ha
  obtain ⟨n₁, hn₁⟩ := hd₁.before
  obtain ⟨n₄, hn₄⟩ := hd₄.before
  have hhypervisor : d₄.config.hypervisor = s₀.config.hypervisor := by
    rw [hn₄]
    exact (admits_afterSteps s₀ n₄).hypervisor
  refine ⟨?_, ?_, ⟨d₃, u, v, hd₃, hbefore, ?_⟩, ⟨d₂, _, hd₂, Boot.pointsTo_contextPointer _, ?_⟩,
    ⟨d₁, f, hd₁, hpublish, ?_⟩⟩
  · rw [← hconfig]
    change _ = d₁.config.platform
    rw [hn₁]
    exact (admits_afterSteps s₀ n₁).platform.symm
  · rw [← hhypervisor]
    exact Boot.place_eq_ok hplace
  · rw [BootContext.handoffParams, hd₃.left hacquire writtenBy_bootCpu, hset]
    exact hcpu
  · rw [BootContext.handoffParams, hd₂.left hdump writtenBy_contextPointer,
      Boot.diagnosticDump_eq_ok hdump]
  · rw [BootContext.handoffParams, hd₁.left hdetect writtenBy_systemTable, hfound]
    rfl

theorem handover_of_steps {world : World φ} {memory : μ} {config : BootConfig} {n : Nat}
    (hs : (start world memory config).afterSteps n = s) (hstate : s.state = .transfer) :
    ∃ p entry, s.transfer = s.enter p entry ∧
      Handover (start world memory config) s p entry s.context.handoffParams := by
  have hpassed : ∀ state, state ≠ .transfer → ∃ d, Passed (start world memory config) state d s := by
    intro state hne
    rw [← hs]
    refine exists_passed ?_ n ?_
    · change state.remaining ≤ 8
      cases state <;> decide
    · rw [hs, hstate]
      exact Nat.pos_of_ne_zero fun h => hne (BootState.remaining_eq_zero.mp h)
  obtain ⟨d, hd⟩ := hpassed .detect (by decide)
  obtain ⟨t, hdetect, -⟩ := hd.action (by decide)
  obtain ⟨p, f, -, -, -, hfound⟩ := Boot.detect_eq_ok (lenient_blind (φ := φ)).toQuiet hdetect
  have hplatform : s.context.platform = some p := by
    rw [hd.left hdetect writtenBy_platform, hfound]
    rfl
  obtain ⟨d', hd'⟩ := hpassed .copyPayloads (by decide)
  obtain ⟨t', hcopies, -⟩ := hd'.action (by decide)
  obtain ⟨entry, -, -, -, hentered⟩ := Boot.entry_of_copyPayloads hcopies
  have hentry : s.context.entry = some entry := by
    rw [hd'.left hcopies writtenBy_entry, hentered]
  exact ⟨p, entry, transfer_of_known hstate hplatform hentry, .of_passed hplatform hentry hpassed⟩

/-! ## The contract -/

/-- A boot has ended: it was run as a whole, or a caller stepped it and entered the hypervisor. -/
inductive Ends (s₀ : Session φ μ) : Outcome × Session φ μ → Prop
  | run : Ends s₀ s₀.run
  | transfer (n : Nat) : Ends s₀ (s₀.afterSteps n).transfer

omit [Mapping μ] in
theorem marks_transfer_of_ne (h : s.state ≠ .transfer) : s.transfer.2.marks = s.marks := by
  rw [transfer_of_ne h]
  exact marks_fail _ s

/-- Where the payload was entered, all states had been passed. -/
theorem Ends.transferred {r : Outcome × Session φ μ} (h : Ends s₀ r) {done : List Mark}
    (hdone : r.2.marks = s₀.marks ++ done) (htransfer : Mark.hook .transfer ∈ done) :
    ∃ n, (s₀.afterSteps n).state = .transfer ∧ r = (s₀.afterSteps n).transfer := by
  have hnever : ∀ n, (s₀.afterSteps n).marks ≠ s₀.marks ++ done := by
    intro n hn
    obtain ⟨new, hnew, hnot⟩ := s₀.transfer_notMem_afterSteps n
    rw [List.append_cancel_left (hn.symm.trans hnew)] at htransfer
    exact hnot htransfer
  cases h with
  | run =>
    cases hrun : Boot.runUntilTransfer s₀ with
    | ok _ t =>
      obtain ⟨n, rfl, hstate⟩ := Boot.runUntilTransfer_eq_ok hrun
      exact ⟨n, hstate, run_of_ok hrun⟩
    | error e t =>
      obtain ⟨n, rfl⟩ := Boot.runUntilTransfer_eq_error hrun
      rw [run_of_error hrun, marks_fail] at hdone
      exact absurd hdone (hnever (n + 1))
  | transfer n =>
    by_cases hstate : (s₀.afterSteps n).state = .transfer
    · exact ⟨n, hstate, rfl⟩
    · rw [marks_transfer_of_ne hstate] at hdone
      exact absurd hdone (hnever n)

omit [Mapping μ] in
theorem enter_eq_ok (p : Platform) (entry : Address) (s : Session φ μ) :
    ∃ w, w.machine.target = s.world.machine.target ∧
      Host.enter (ε := Empty) p entry s.context.handoffParams w =
        .ok (s.enter p entry).1 (s.enter p entry).2.world := by
  unfold enter
  dsimp only
  split
  · rename_i henter
    refine ⟨_, ?_, henter⟩
    exact (patient_target.say _ _).trans (Handoff.idles_trace _ _ _ _ _).target
  · rename_i e _ _
    exact nomatch e

omit [Mapping μ] in
theorem outcome_of_enter {w w' : World φ} {outcome : Outcome}
    (h : Host.enter (ε := Empty) p entry params w = .ok outcome w') :
    outcome = match p.wiring, w.machine.target with
      | .hardware, none => .halted
      | _, _ => .transferred entry p.arch.convention params := by
  unfold Host.enter at h
  rw [Host.record, Host.onMachine, modify_bind, get_bind] at h
  dsimp only [Machine.record] at h
  cases hwiring : p.wiring <;> cases htarget : w.machine.target <;> rw [hwiring, htarget] at h <;>
    cases h <;> rfl

theorem firmware_of_passed {τ : Type} {look : φ → τ} (hlook : Steady look) {state : BootState}
    {d : Session φ μ} (h : Passed s₀ state d s) :
    look d.announced.world.firmware = look s₀.world.firmware := by
  obtain ⟨n, rfl⟩ := h.before
  exact (hlook.lenient.say _ _).trans (world_afterSteps hlook.lenient s₀ n)

/-- Whatever the firmware answers and publishes, the hypervisor is entered once at most, and if it
is, at its entry and with the words that the convention of the platform passes on: the answer of the
hook for the processor, the pointer to the firmware's tables, and the system table. -/
theorem handover_contract (world : World φ) (memory : μ) (config : BootConfig)
    {r : Outcome × Session φ μ} (hr : Ends (start world memory config) r) {done : List Mark}
    (hdone : r.2.marks = world.marks ++ done) (htransfer : Mark.hook .transfer ∈ done) :
    done.count (.hook .transfer) = 1 ∧
    ∃ s p entry params w, Handover (start world memory config) s p entry params ∧
      Host.enter (ε := Empty) p entry params w = .ok r.1 r.2.world ∧
      (r.1 = match p.wiring, world.machine.target with
        | .hardware, none => .halted
        | _, _ => .transferred entry p.arch.convention params) ∧
      (Steady (Firmware.entries : φ → List Acpi.ConfigEntry) → ∃ a,
        PointsTo (Firmware.entries world.firmware) a ∧ params.context = a.word) ∧
      (Steady (Firmware.systemTable : φ → Address) →
        params.secondary = (Firmware.systemTable world.firmware).word) := by
  obtain ⟨n, hstate, rfl⟩ := hr.transferred hdone htransfer
  obtain ⟨new, hnew, hnot⟩ := (start world memory config).transfer_notMem_afterSteps n
  obtain ⟨p, entry, henter, hhandover⟩ := handover_of_steps rfl hstate
  rw [henter] at hdone ⊢
  constructor
  · rw [marks_enter, hnew, List.append_assoc] at hdone
    rw [← List.append_cancel_left hdone, List.count_append, List.count_eq_zero.mpr hnot]
    rfl
  · obtain ⟨w, htarget, hw⟩ := enter_eq_ok p entry ((start world memory config).afterSteps n)
    have hbuilt : w.machine.target = world.machine.target :=
      htarget.trans (world_afterSteps lenient_target (start world memory config) n)
    refine ⟨_, p, entry, _, w, hhandover, hw, hbuilt ▸ outcome_of_enter hw, fun hsteady => ?_,
      fun hsteady => ?_⟩
    · obtain ⟨d, a, hd, hpoints, hcontext⟩ := hhandover.context
      rw [firmware_of_passed hsteady hd] at hpoints
      exact ⟨a, hpoints, hcontext⟩
    · obtain ⟨d, f, hd, hpublish, hsecondary⟩ := hhandover.secondary
      have hkept : Firmware.systemTable f.firmware = Firmware.systemTable d.announced.world.firmware :=
        (Host.keeps_publish hsteady.lenient.toQuiet p).of_ok hpublish
      have hgiven : Firmware.systemTable d.announced.world.firmware =
          Firmware.systemTable world.firmware := firmware_of_passed hsteady hd
      rw [hsecondary, hkept, hgiven]

end Session

/-- What was read at the start stays as it is, so the tables and the place of the loader do. -/
theorem Uefi.UefiFirmware.steady_snapshot : Steady UefiFirmware.snapshot where
  print line f := by
    change (f.print line).snapshot = f.snapshot
    unfold print
    split <;> rfl
  bootHart f := by
    change f.bootHart.2.snapshot = f.snapshot
    unfold UefiFirmware.bootHart
    split
    · rcases f.system.bootHart with ⟨_ | _, _⟩ <;> rfl
    · rfl
  releaseHart _ := rfl
  memoryMap _ _ := rfl
  allocate _ _ := rfl
  quiesce _ := rfl
  exit key f := by
    change (f.exit key).2.snapshot = f.snapshot
    unfold UefiFirmware.exit
    dsimp only
    split <;> rfl

namespace Sample

/-- A system that publishes tables of all kinds, the one that counts among the last. -/
def published : Uefi.System :=
  { Uefi.System.plain with
    tables := [(.loadedImage, .ofNat 0x3000), (.acpi1, .ofNat 0x3010), (.acpi2, .ofNat 0x3020),
      (.deviceTree, .ofNat 0x8000), (.deviceTree, .ofNat 0x9000)]
    maps := [⟨.bufferTooSmall, ⟨0⟩, ⟨96, 48, 1⟩⟩, ⟨.success, ⟨7⟩, ⟨96, 48, 1⟩⟩] }

def uefiWorld : World Uefi.UefiFirmware :=
  let snapshot := some ⟨published.entries, .ofNat 0x3000 0x200, published.address⟩
  ⟨.fresh ⟨0, false⟩, { Uefi.UefiFirmware.start published with snapshot }⟩

end Sample

/-- The hypervisor gets the first of two device trees, and the system table. -/
theorem Session.handover_contract_sample : ∃ entry params,
    (start Sample.uefiWorld Sample.memory Sample.config).run.1 =
        .transferred entry Sample.platform.arch.convention params ∧
      params.context = 0x8000 ∧ params.secondary = 0x3000000000 := by
  have hsteady := Uefi.UefiFirmware.steady_snapshot
  obtain ⟨-, s, p, entry, params, w, hhandover, -, houtcome, hcontext, hsecondary⟩ :=
    handover_contract Sample.uefiWorld Sample.memory Sample.config .run (List.nil_append _).symm
      (by decide +kernel)
  cases hhandover.platform
  obtain ⟨a, ha, hword⟩ := hcontext (hsteady.map fun f => (f.map (·.entries)).getD [])
  refine ⟨entry, params, houtcome, ?_,
    hsecondary (hsteady.map fun f => (f.map (·.systemTable)).getD .zero)⟩
  rw [hword, Boot.eq_contextPointer ha]
  decide

end BootLoader
