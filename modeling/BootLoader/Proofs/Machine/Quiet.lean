import BootLoader.Handoff.MemoryMap
import BootLoader.Machine.Binding
import BootLoader.Machine.Hooks
import BootLoader.Proofs.Computation

/-! What computations do to the world, for any relation between worlds. `Quiet` relations put up
with what leaves no event on the trail, and `Patient` ones with hooks and write phases too; what is
left are the calls to the firmware, which each lemma asks for by name. -/

namespace BootLoader

/-- An event that is no call to the firmware. -/
def Event.isInner : Event → Bool
  | .hook _ | .writes _ => true
  | _ => false

/-- Nothing was recorded, and a binding is not undone. -/
structure Machine.Idles (m m' : Machine) : Prop where
  trail : m'.trail = m.trail
  target : m'.target = m.target
  bound : ∀ p, m.bound = some p → m'.bound = some p

variable {φ : Type} [Firmware φ] {R : World φ → World φ → Prop}

/-- Lines may be written, and the machine may change without an event. -/
structure Quiet (R : World φ → World φ → Prop) : Prop where
  say : ∀ (w : World φ) line, R w (w.say line)
  machine : ∀ (w : World φ) (m : Machine), w.machine.Idles m → R w { w with machine := m }

/-- The platform's hooks and the write phases may be recorded. -/
structure Patient (R : World φ → World φ → Prop) : Prop extends Quiet R where
  inner : ∀ (w : World φ) e, e.isInner = true → R w { w with machine := w.machine.record e }

/-- Calls to the firmware may be made. -/
structure Lenient (R : World φ → World φ → Prop) : Prop extends Patient R where
  bootHart : Keeps R (Host.bootHart : Host φ Empty (Option UInt64))
  memoryMap : ∀ buffer, Keeps R (Host.memoryMap buffer : Host φ Empty MapQuery)
  allocate : ∀ size, Keeps R (Host.allocate size : Host φ Empty (Except Status Region))
  quiesce : Keeps R (Host.quiesce : Host φ Empty Unit)
  exit : ∀ key, Keeps R (Host.exit key : Host φ Empty (Except Status Unit))

/-- What does not look at the serial lines sees nothing of a text that goes there. -/
theorem Machine.view_trace {τ : Type} (view : Machine → τ)
    (h : ∀ (m : Machine) p u, view (m.setDevice p { m.device p with uart := u }) = view m)
    (m : Machine) (text : String) : view (m.trace text) = view m := by
  unfold trace
  split
  · exact h m _ _
  · rfl

theorem Machine.trail_trace (m : Machine) (text : String) : (m.trace text).trail = m.trail :=
  view_trace trail (fun _ _ _ => rfl) m text

theorem Machine.target_trace (m : Machine) (text : String) : (m.trace text).target = m.target :=
  view_trace target (fun _ _ _ => rfl) m text

theorem Machine.bound_trace (m : Machine) (text : String) : (m.trace text).bound = m.bound :=
  view_trace bound (fun _ _ _ => rfl) m text

theorem Machine.logger_trace (m : Machine) (text : String) : (m.trace text).logger = m.logger :=
  view_trace logger (fun _ _ _ => rfl) m text

theorem Machine.Idles.trans {m m' m'' : Machine} (h : m.Idles m') (h' : m'.Idles m'') :
    m.Idles m'' :=
  ⟨h'.trail.trans h.trail, h'.target.trans h.target, fun p hp => h'.bound p (h.bound p hp)⟩

theorem Machine.idles_trace (m : Machine) (text : String) : m.Idles (m.trace text) :=
  ⟨m.trail_trace text, m.target_trace text, fun _ h => (m.bound_trace text).trans h⟩

theorem Machine.idles_setDevice (m : Machine) (p : Platform) (d : Device) :
    m.Idles (m.setDevice p d) := ⟨rfl, rfl, fun _ h => h⟩

omit [Firmware φ] in
theorem World.machine_say_cases [Console φ] (w : World φ) (line : Line) :
    (w.say line).machine = w.machine ∨
      w.machine.logger.toSerial = true ∧ (w.say line).machine = w.machine.trace line.render := by
  unfold World.say
  dsimp only
  split
  · cases w.machine.logger.toSerial with
    | false => exact .inl rfl
    | true => exact .inr ⟨rfl, rfl⟩
  · exact .inl rfl

omit [Firmware φ] in
/-- Nor does it see anything of the logger's lines. -/
theorem World.view_say {τ : Type} [Console φ] (view : Machine → τ)
    (h : ∀ (m : Machine) p u, view (m.setDevice p { m.device p with uart := u }) = view m)
    (w : World φ) (line : Line) : view (w.say line).machine = view w.machine := by
  rcases w.machine_say_cases line with hsame | ⟨-, htrace⟩
  · rw [hsame]
  · rw [htrace]
    exact Machine.view_trace view h w.machine line.render

theorem World.trail_say (w : World φ) (line : Line) :
    (w.say line).machine.trail = w.machine.trail :=
  view_say Machine.trail (fun _ _ _ => rfl) w line

omit [Firmware φ] in
theorem World.bound_say [Console φ] (w : World φ) (line : Line) :
    (w.say line).machine.bound = w.machine.bound :=
  view_say Machine.bound (fun _ _ _ => rfl) w line

variable [IsPreorder (World φ) R]

theorem Quiet.sayAll (h : Quiet R) (w : World φ) (lines : List Line) : R w (w.sayAll lines) := by
  induction lines generalizing w with
  | nil => exact refl_of R w
  | cons line lines ih => exact trans_of R (h.say w line) (ih (w.say line))

namespace Host

variable {ε α : Type}

omit [IsPreorder (World φ) R] in
theorem keeps_say (h : Quiet R) (line : Line) : Keeps R (say line : Host φ ε Unit) :=
  Keeps.modify fun w => h.say w line

omit [IsPreorder (World φ) R] in
theorem keeps_onMachine (h : Quiet R) {f : Machine → Machine} (hf : ∀ m : Machine, m.Idles (f m)) :
    Keeps R (onMachine f : Host φ ε Unit) :=
  Keeps.modify fun w => h.machine w (f w.machine) (hf w.machine)

omit [IsPreorder (World φ) R] in
theorem keeps_hook (h : Patient R) (k : Hook) : Keeps R (record (.hook k) : Host φ ε Unit) :=
  Keeps.modify fun w => h.inner w (.hook k) rfl

omit [Firmware φ] in
theorem keeps_ofExcept (r : Except ε α) : Keeps R (ofExcept r : Host φ ε α) := by
  cases r with
  | ok a => exact Keeps.pure a
  | error e => exact Keeps.throw e

section Publish

omit [Firmware φ]

variable [Console φ] {p q : Platform} {w : World φ}

omit [IsPreorder (World φ) R] in
/-- A machine that is not bound takes any platform. -/
theorem publish_of_unbound (p : Platform) (h : w.machine.bound = none) : ∃ line, publish p w =
    .ok () (({ w with machine := { w.machine with bound := some p } } : World φ).say line) := by
  unfold publish
  rw [get_bind, h]
  exact ⟨_, rfl⟩

omit [IsPreorder (World φ) R] in
/-- One that is bound takes that platform alone, and stays as it is. -/
theorem publish_of_bound (p : Platform) (h : w.machine.bound = some q) :
    publish p w = if q.id = p.id then .ok () w else .error (.alreadyBound q.arch p.arch) w := by
  unfold publish
  rw [get_bind, h]
  dsimp only
  split <;> rfl

omit [IsPreorder (World φ) R] in
/-- A machine can be bound to a platform unless it is bound to another one. -/
theorem publish_of_free (h : ∀ q, w.machine.bound = some q → q.id = p.id) :
    ∃ w', publish p w = .ok () w' := by
  cases hbound : w.machine.bound with
  | none =>
    obtain ⟨line, hpublish⟩ := publish_of_unbound p hbound
    exact ⟨_, hpublish⟩
  | some q => exact ⟨w, (publish_of_bound p hbound).trans (if_pos (h q hbound))⟩

omit [IsPreorder (World φ) R] in
theorem publish_of_taken (h : w.machine.bound = some q) (hq : q.id ≠ p.id) :
    publish p w = .error (.alreadyBound q.arch p.arch) w :=
  (publish_of_bound p h).trans (if_neg hq)

end Publish

theorem keeps_publish (h : Quiet R) (p : Platform) :
    Keeps R (publish p : Host φ PlatformError Unit) := by
  intro w
  cases hbound : w.machine.bound with
  | none =>
    have hidle : w.machine.Idles { w.machine with bound := some p } :=
      ⟨rfl, rfl, fun q hq => by rw [hbound] at hq; cases hq⟩
    obtain ⟨line, hpublish⟩ := publish_of_unbound p hbound
    rw [hpublish]
    exact trans_of R (h.machine w _ hidle) (h.say _ line)
  | some q =>
    rw [publish_of_bound p hbound]
    split <;> exact refl_of R w

omit [Firmware φ] [IsPreorder (World φ) R] in
theorem takeReply_apply (p : Platform) (k : Hook) (w : World φ) :
    takeReply p k w = match (w.machine.device p).reply k with
      | (none, d) => .ok () { w with machine := w.machine.setDevice p d }
      | (some e, d) => .error e { w with machine := w.machine.setDevice p d } := by
  unfold takeReply
  rw [get_bind]
  rcases (w.machine.device p).reply k with ⟨_ | e, d⟩ <;> rfl

theorem keeps_takeReply (h : Quiet R) (p : Platform) (k : Hook) :
    Keeps R (takeReply p k : Host φ PlatformError Unit) := by
  unfold takeReply
  refine Keeps.bind Keeps.get fun w => ?_
  refine Keeps.bind (keeps_onMachine h fun m => m.idles_setDevice p _) fun _ => ?_
  split
  · exact Keeps.pure ()
  · exact Keeps.throw _

omit [Firmware φ] in
theorem keeps_native (arch : Arch) : Keeps R (native arch : Host φ PlatformError Unit) :=
  Keeps.bind Keeps.get fun _ => keeps_ofExcept _

theorem keeps_plainHook (h : Patient R) (p : Platform) (k : Hook) :
    Keeps R (plainHook p k : Host φ PlatformError Unit) := by
  unfold plainHook
  refine Keeps.bind (keeps_hook h k) fun _ => ?_
  split
  · split
    · exact keeps_native p.arch
    · exact Keeps.pure ()
  · exact keeps_takeReply h.toQuiet p k

/-- The question for the boot hart is two calls, with what is said of the answer between them. -/
theorem keeps_bootHart (h : Quiet R)
    (hask : Keeps R (call Firmware.bootHart (.bootHart ·.hart) : Host φ ε HartReply))
    (hrelease : ∀ w : World φ, R w { w with firmware := Firmware.releaseHart w.firmware }) :
    Keeps R (bootHart : Host φ ε (Option UInt64)) :=
  Keeps.bind hask fun reply => Keeps.bind (Keeps.modify fun w => h.sayAll w reply.said) fun _ =>
    Keeps.bind (Keeps.modify hrelease) fun _ => Keeps.pure _

theorem keeps_queryHart (h : Quiet R)
    (hhart : Keeps R (Host.bootHart : Host φ PlatformError (Option UInt64))) (p : Platform) :
    Keeps R (queryHart p : Host φ PlatformError UInt64) := by
  unfold queryHart
  refine Keeps.bind Keeps.get fun w => ?_
  dsimp only
  split
  · exact Keeps.pure _
  · refine Keeps.bind hhart fun answer => ?_
    split
    · exact Keeps.throw _
    · exact Keeps.bind (keeps_onMachine h fun m => m.idles_setDevice p _) fun _ =>
        Keeps.bind (keeps_say h _) fun _ => Keeps.pure _

theorem keeps_beforeExit (h : Patient R)
    (hhart : Keeps R (Host.bootHart : Host φ PlatformError (Option UInt64))) (p : Platform) :
    Keeps R (beforeExit p : Host φ PlatformError Unit) := by
  unfold beforeExit
  refine Keeps.bind (keeps_hook h .beforeExit) fun _ => ?_
  split
  · exact Keeps.bind (keeps_queryHart h.toQuiet hhart p) fun _ => Keeps.pure _
  · exact Keeps.pure ()
  · exact keeps_takeReply h.toQuiet p .beforeExit

theorem keeps_bootCpu (h : Patient R)
    (hhart : Keeps R (Host.bootHart : Host φ PlatformError (Option UInt64))) (p : Platform) :
    Keeps R (bootCpu p : Host φ PlatformError UInt64) := by
  unfold bootCpu
  refine Keeps.bind (keeps_hook h .bootCpu) fun _ => ?_
  split
  · exact keeps_queryHart h.toQuiet hhart p
  · exact Keeps.pure _
  · exact Keeps.bind (keeps_takeReply h.toQuiet p .bootCpu) fun _ =>
      Keeps.bind hhart fun _ => Keeps.pure _

theorem keeps_probeAndAllocate (h : Lenient R) :
    Keeps R (probeAndAllocate : Host φ FirmwareError MapBuffer) := by
  unfold probeAndAllocate
  refine Keeps.bind (h.memoryMap _) fun answer => ?_
  split
  · exact Keeps.throw _
  · exact Keeps.throw _
  · refine Keeps.bind (keeps_say h.toQuiet _) fun _ => ?_
    dsimp only
    split
    · exact Keeps.throw _
    · refine Keeps.bind (h.allocate _) fun granted => ?_
      split
      · exact Keeps.throw _
      · exact Keeps.bind (keeps_say h.toQuiet _) fun _ => Keeps.pure _

theorem keeps_fillAndExit (h : Lenient R) (buffer : MapBuffer) :
    Keeps R (fillAndExit buffer : Host φ FirmwareError MemoryMapInfo) := by
  unfold fillAndExit
  refine Keeps.bind (h.memoryMap _) fun answer => ?_
  split
  · exact Keeps.throw _
  · exact Keeps.throw _
  · refine Keeps.bind (h.exit _) fun left => ?_
    split
    · exact Keeps.throw _
    · exact Keeps.pure _

end Host

/-! ## Views of the firmware -/

/-- Nothing that is printed or asked for changes what `look` sees of the firmware. -/
structure Steady {τ : Type} (look : φ → τ) : Prop where
  print : ∀ line f, look (Console.print line f) = look f
  bootHart : ∀ f, look (Firmware.bootHart f).2 = look f
  releaseHart : ∀ f, look (Firmware.releaseHart f) = look f
  memoryMap : ∀ buffer f, look (Firmware.memoryMap buffer f).2 = look f
  allocate : ∀ size f, look (Firmware.allocate size f).2 = look f
  quiesce : ∀ f, look (Firmware.quiesce f) = look f
  exit : ∀ key f, look (Firmware.exit key f).2 = look f

theorem Steady.map {τ τ' : Type} {look : φ → τ} (h : Steady look) (f : τ → τ') :
    Steady fun g => f (look g) where
  print line g := congrArg f (h.print line g)
  bootHart g := congrArg f (h.bootHart g)
  releaseHart g := congrArg f (h.releaseHart g)
  memoryMap buffer g := congrArg f (h.memoryMap buffer g)
  allocate size g := congrArg f (h.allocate size g)
  quiesce g := congrArg f (h.quiesce g)
  exit key g := congrArg f (h.exit key g)

theorem Steady.patient {τ : Type} {look : φ → τ} (h : Steady look) :
    Patient (Same fun w : World φ => look w.firmware) where
  say w line := by
    unfold Same World.say
    dsimp only
    split
    · exact h.print line w.firmware
    · rfl
  machine _ _ _ := rfl
  inner _ _ _ := rfl

theorem Steady.lenient {τ : Type} {look : φ → τ} (h : Steady look) :
    Lenient (Same fun w : World φ => look w.firmware) where
  toPatient := h.patient
  bootHart := Host.keeps_bootHart h.patient.toQuiet (fun w => h.bootHart w.firmware)
    fun w => h.releaseHart w.firmware
  memoryMap buffer w := h.memoryMap buffer w.firmware
  allocate size w := h.allocate size w.firmware
  quiesce w := h.quiesce w.firmware
  exit key w := h.exit key w.firmware

/-! ## The binding -/

def World.Bonded (w w' : World φ) : Prop :=
  ∀ p, w.machine.bound = some p → w'.machine.bound = some p

omit [Firmware φ] in
instance : IsPreorder (World φ) World.Bonded where
  refl _ _ h := h
  trans _ _ _ h h' p hp := h' p (h p hp)

theorem patient_bonded : Patient (World.Bonded : World φ → World φ → Prop) where
  say w line _ hp := (w.bound_say line).trans hp
  machine _ _ h := h.bound
  inner _ _ _ _ hp := hp

theorem lenient_bonded : Lenient (World.Bonded : World φ → World φ → Prop) where
  toPatient := patient_bonded
  bootHart := Host.keeps_bootHart patient_bonded.toQuiet (fun _ _ hp => hp) fun _ _ hp => hp
  memoryMap _ _ _ hp := hp
  allocate _ _ _ hp := hp
  quiesce _ _ hp := hp
  exit _ _ _ hp := hp

/-! ## The target -/

theorem patient_target : Patient (Same fun w : World φ => w.machine.target) where
  say w line := World.view_say Machine.target (fun _ _ _ => rfl) w line
  machine _ _ h := h.target
  inner _ _ _ := rfl

/-- A loader stays what it was built for. -/
theorem lenient_target : Lenient (Same fun w : World φ => w.machine.target) where
  toPatient := patient_target
  bootHart := Host.keeps_bootHart patient_target.toQuiet (fun _ => rfl) fun _ => rfl
  memoryMap _ _ := rfl
  allocate _ _ := rfl
  quiesce _ := rfl
  exit _ _ := rfl

/-- Nothing at all is looked at. -/
theorem lenient_blind : Lenient (Same fun _ : World φ => ()) where
  say _ _ := rfl
  machine _ _ _ := rfl
  inner _ _ _ := rfl
  bootHart _ := rfl
  memoryMap _ _ := rfl
  allocate _ _ := rfl
  quiesce _ := rfl
  exit _ _ := rfl

end BootLoader
