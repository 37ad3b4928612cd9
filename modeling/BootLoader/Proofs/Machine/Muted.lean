import BootLoader.Firmware.Scripted
import BootLoader.Proofs.Machine.Quiet
import BootLoader.Proofs.Twins

/-! A world without its serial lines, its logger and the console of its firmware. Nothing that a
computation comes to depends on these, for a firmware that does not listen to its own console. -/

namespace BootLoader

variable {φ ψ ε α : Type}

def Device.mute (d : Device) : Device := { d with uart := .endless }

/-- The next reply does not depend on the serial line. -/
theorem Device.reply_mute {d d' : Device} (h : d.mute = d'.mute) (k : Hook) :
    (d.reply k).1 = (d'.reply k).1 ∧ (d.reply k).2.mute = (d'.reply k).2.mute := by
  cases d
  cases d'
  cases h
  unfold reply
  dsimp only
  split <;> exact ⟨rfl, rfl⟩

namespace Machine

def mute (m : Machine) : Machine :=
  { m with devices := fun i => (m.devices i).mute, logger := ⟨0, false⟩ }

def withUarts (m : Machine) (uarts : Nat → Uart) : Machine :=
  { m with devices := fun i => { m.devices i with uart := uarts i } }

@[simp] theorem mute_withUarts (m : Machine) (uarts : Nat → Uart) :
    (m.withUarts uarts).mute = m.mute := rfl

variable {m m' : Machine} {d d' : Device}

theorem device_mute (h : m.mute = m'.mute) (p : Platform) : (m.device p).mute = (m'.device p).mute :=
  congrFun (congrArg devices h) p.id

theorem target_mute (h : m.mute = m'.mute) : m.target = m'.target := (Machine.mk.inj h).1

theorem bound_mute (h : m.mute = m'.mute) : m.bound = m'.bound := (Machine.mk.inj h).2.1

theorem trail_mute (h : m.mute = m'.mute) : m.trail = m'.trail := (Machine.mk.inj h).2.2.2.2

theorem mute_setDevice (h : m.mute = m'.mute) (p : Platform) (hd : d.mute = d'.mute) :
    (m.setDevice p d).mute = (m'.setDevice p d').mute := by
  have hdevices : ∀ i, (m.devices i).mute = (m'.devices i).mute := congrFun (congrArg devices h)
  have hbound : m.bound = m'.bound := bound_mute h
  have htrail : m.trail = m'.trail := trail_mute h
  have hall : (fun i => ((m.setDevice p d).devices i).mute) =
      fun i => ((m'.setDevice p d').devices i).mute := by
    funext i
    unfold setDevice
    dsimp only
    split
    · exact hd
    · exact hdevices i
  unfold mute
  rw [hall]
  unfold setDevice
  rw [target_mute h, hbound, htrail]

/-- A device that differs in its serial line alone makes no difference. -/
theorem mute_setDevice_self {p : Platform} (hd : d.mute = (m.device p).mute) :
    (m.setDevice p d).mute = m.mute := by
  rw [mute_setDevice rfl p hd, setDevice_device]

theorem mute_trace (m : Machine) (text : String) : (m.trace text).mute = m.mute :=
  view_trace mute (fun _ _ _ => mute_setDevice_self rfl) m text

theorem mute_record (h : m.mute = m'.mute) (e : Event) : (m.record e).mute = (m'.record e).mute :=
  congrArg (record · e) h

end Machine

/-- A call that neither answers nor leaves anything but by what `look` sees. -/
def Through (look : φ → ψ) (call : φ → α × φ) : Prop :=
  ∀ f g, look f = look g → (call f).1 = (call g).1 ∧ look (call f).2 = look (call g).2

/-- The firmware does not listen to its console: what is printed there changes nothing that `look`
sees, and `look` sees all that an answer depends on. -/
structure Deaf [Firmware φ] (look : φ → ψ) : Prop where
  print : ∀ line f, look (Console.print line f) = look f
  entries : ∀ f g, look f = look g → Firmware.entries f = Firmware.entries g
  systemTable : ∀ f g, look f = look g → Firmware.systemTable f = Firmware.systemTable g
  loaderImage : ∀ f g, look f = look g → Firmware.loaderImage f = Firmware.loaderImage g
  bootHart : Through look Firmware.bootHart
  releaseHart : ∀ f g, look f = look g → look (Firmware.releaseHart f) = look (Firmware.releaseHart g)
  memoryMap : ∀ buffer, Through look (Firmware.memoryMap buffer)
  allocate : ∀ size, Through look (Firmware.allocate size)
  quiesce : ∀ f g, look f = look g → look (Firmware.quiesce f) = look (Firmware.quiesce g)
  exit : ∀ key, Through look (Firmware.exit key)

namespace ScriptedFirmware

def unheard (f : ScriptedFirmware) : ScriptedFirmware := { f with printed := [] }

theorem eq_of_unheard {f g : ScriptedFirmware} (h : f.unheard = g.unheard) :
    ∃ lines, g = { f with printed := lines } := by
  cases f
  cases g
  cases h
  exact ⟨_, rfl⟩

/-- A scripted firmware only collects what is printed. -/
theorem deaf : Deaf unheard where
  print _ _ := rfl
  entries _ _ h := (congrArg ScriptedFirmware.entries h :)
  systemTable _ _ h := (congrArg ScriptedFirmware.systemTable h :)
  loaderImage _ _ h := (congrArg ScriptedFirmware.loaderImage h :)
  bootHart _ _ h := ⟨(congrArg (⟨hart ·, []⟩ : _ → HartReply) h :), h⟩
  releaseHart _ _ h := h
  memoryMap buffer f g h := by
    obtain ⟨lines, rfl⟩ := eq_of_unheard h
    exact ⟨rfl, rfl⟩
  allocate size f g h := by
    obtain ⟨lines, rfl⟩ := eq_of_unheard h
    change (allocate size f).1 = (allocate size { f with printed := lines }).1 ∧
      unheard (allocate size f).2 = unheard (allocate size { f with printed := lines }).2
    unfold allocate
    rcases next f.allocationFailures with ⟨_ | status, rest⟩
    · dsimp only
      split <;> exact ⟨rfl, rfl⟩
    · exact ⟨rfl, rfl⟩
  quiesce f g h := h
  exit key f g h := by
    obtain ⟨lines, rfl⟩ := eq_of_unheard h
    change (exit key f).1 = (exit key { f with printed := lines }).1 ∧
      unheard (exit key f).2 = unheard (exit key { f with printed := lines }).2
    unfold exit
    rcases next f.exitFailures with ⟨_ | status, rest⟩
    · dsimp only
      split <;> exact ⟨rfl, rfl⟩
    · exact ⟨rfl, rfl⟩

end ScriptedFirmware

/-- What is left of a world when the serial lines, the logger and the console are taken away. -/
def World.mute (look : φ → ψ) (w : World φ) : World ψ := ⟨w.machine.mute, look w.firmware⟩

variable {look : φ → ψ}

namespace World

variable {w w' : World φ}

theorem machine_mute (h : w.mute look = w'.mute look) : w.machine.mute = w'.machine.mute :=
  (World.mk.inj h).1

theorem look_mute (h : w.mute look = w'.mute look) : look w.firmware = look w'.firmware :=
  (World.mk.inj h).2

theorem mute_machine (h : w.mute look = w'.mute look) {m m' : Machine} (hm : m.mute = m'.mute) :
    ({ w with machine := m } : World φ).mute look = ({ w' with machine := m' } : World φ).mute look := by
  unfold mute
  rw [hm, look_mute h]

end World

namespace Host

abbrev Matched (look : φ → ψ) (x y : Host φ ε α) : Prop :=
  Twins (World.mute look) (fun _ => True) x y

theorem matched_ofExcept (r : Except ε α) : Matched look (ofExcept r) (ofExcept r) := by
  cases r with
  | ok a => exact Twins.pure a
  | error e => exact Twins.throw trivial

theorem matched_onMachine {f g : Machine → Machine}
    (h : ∀ m m' : Machine, m.mute = m'.mute → (f m).mute = (g m').mute) :
    Matched look (onMachine f : Host φ ε Unit) (onMachine g) :=
  Twins.modify fun _ _ hw => World.mute_machine hw (h _ _ (World.machine_mute hw))

theorem matched_record (e : Event) : Matched look (record e : Host φ ε Unit) (record e) :=
  matched_onMachine fun _ _ h => Machine.mute_record h e

theorem matched_call {f : φ → α × φ} (hf : Through look f) (event : α → Event) :
    Matched look (call f event : Host φ ε α) (call f event) := by
  intro w w' h
  obtain ⟨hanswer, hrest⟩ := hf _ _ (World.look_mute h)
  have hmute : World.mute look ⟨w.machine.record (event (f w.firmware).1), (f w.firmware).2⟩ =
      World.mute look ⟨w'.machine.record (event (f w'.firmware).1), (f w'.firmware).2⟩ := by
    unfold World.mute
    rw [hrest, hanswer, Machine.mute_record (World.machine_mute h)]
  unfold call
  dsimp only
  rw [hanswer] at hmute ⊢
  exact .ok _ hmute

theorem matched_takeReply (p : Platform) (k : Hook) :
    Matched look (takeReply p k : Host φ PlatformError Unit) (takeReply p k) := by
  unfold takeReply
  refine Twins.get_bind fun w w' h => ?_
  have hreply := Device.reply_mute (Machine.device_mute (World.machine_mute h) p) k
  generalize (w.machine.device p).reply k = x, (w'.machine.device p).reply k = x' at hreply ⊢
  obtain ⟨r, d⟩ := x
  obtain ⟨r', d'⟩ := x'
  obtain ⟨rfl, hd⟩ := hreply
  refine Twins.bind (matched_onMachine fun m m' hm => Machine.mute_setDevice hm p hd) fun _ => ?_
  split
  · exact Twins.pure ()
  · exact Twins.throw trivial

theorem matched_native (arch : Arch) :
    Matched look (native arch : Host φ PlatformError Unit) (native arch) := by
  unfold native
  refine Twins.get_bind fun w w' h => ?_
  rw [Machine.target_mute (World.machine_mute h)]
  exact matched_ofExcept _

theorem matched_plainHook (p : Platform) (k : Hook) :
    Matched look (plainHook p k : Host φ PlatformError Unit) (plainHook p k) := by
  unfold plainHook
  refine Twins.bind (matched_record _) fun _ => ?_
  split
  · split
    · exact matched_native p.arch
    · exact Twins.pure ()
  · exact matched_takeReply p k

end Host

variable [Firmware φ]

namespace World

theorem mute_say (hlook : Deaf look) (w : World φ) (line : Line) :
    (w.say line).mute look = w.mute look := by
  unfold World.say
  dsimp only
  split
  · unfold mute
    dsimp only
    rw [hlook.print]
    split
    · rw [Machine.mute_trace]
    · rfl
  · rfl

theorem mute_sayAll (hlook : Deaf look) (w : World φ) (lines : List Line) :
    (w.sayAll lines).mute look = w.mute look := by
  induction lines generalizing w with
  | nil => rfl
  | cons line lines ih =>
    change ((w.say line).sayAll lines).mute look = _
    rw [ih, mute_say hlook]

end World

namespace Host

theorem matched_bootHart (hlook : Deaf look) :
    Matched look (bootHart : Host φ ε (Option UInt64)) bootHart := by
  unfold bootHart
  refine Twins.bind (matched_call hlook.bootHart _) fun reply => ?_
  refine Twins.unseen_bind (Unseen.modify fun w => w.mute_sayAll hlook reply.said)
    (Unseen.modify fun w => w.mute_sayAll hlook reply.said) ?_
  refine Twins.bind (Twins.modify fun w w' h => ?_) fun _ => Twins.pure _
  unfold World.mute
  rw [World.machine_mute h, hlook.releaseHart _ _ (World.look_mute h)]

theorem unseen_say (hlook : Deaf look) (line : Line) :
    Unseen (World.mute look) (say line : Host φ ε Unit) := Unseen.modify fun w => w.mute_say hlook line

theorem matched_publish (hlook : Deaf look) (p : Platform) :
    Matched look (publish p : Host φ PlatformError Unit) (publish p) := by
  unfold publish
  refine Twins.get_bind fun w w' h => ?_
  rw [Machine.bound_mute (World.machine_mute h)]
  split
  · refine Twins.bind (matched_onMachine fun m m' hm => ?_) fun _ =>
      Twins.of_unseen (unseen_say hlook _) (unseen_say hlook _)
    exact congrArg (fun m : Machine => { m with bound := some p }) hm
  · split
    · exact Twins.pure ()
    · exact Twins.throw trivial

theorem matched_queryHart (hlook : Deaf look) (p : Platform) :
    Matched look (queryHart p : Host φ PlatformError UInt64) (queryHart p) := by
  unfold queryHart
  refine Twins.get_bind fun w w' h => ?_
  have hknown : (w.machine.device p).bootHart = (w'.machine.device p).bootHart :=
    (Device.mk.inj (Machine.device_mute (World.machine_mute h) p)).2.1
  dsimp only
  rw [hknown]
  split
  · exact Twins.pure _
  · refine Twins.bind (matched_bootHart hlook) fun answer => ?_
    split
    · exact Twins.throw trivial
    · rename_i hart
      refine Twins.bind (matched_onMachine fun m m' hm => ?_) fun _ =>
        Twins.unseen_bind (unseen_say hlook _) (unseen_say hlook _) (Twins.pure hart)
      have hdevice := Machine.device_mute hm p
      exact Machine.mute_setDevice hm p
        (congrArg (fun d : Device => { d with bootHart := hart }) hdevice)

theorem matched_beforeExit (hlook : Deaf look) (p : Platform) :
    Matched look (beforeExit p : Host φ PlatformError Unit) (beforeExit p) := by
  unfold beforeExit
  refine Twins.bind (matched_record _) fun _ => ?_
  split
  · exact Twins.bind (matched_queryHart hlook p) fun _ => Twins.pure _
  · exact Twins.pure ()
  · exact matched_takeReply p .beforeExit

theorem matched_bootCpu (hlook : Deaf look) (p : Platform) :
    Matched look (bootCpu p : Host φ PlatformError UInt64) (bootCpu p) := by
  unfold bootCpu
  refine Twins.bind (matched_record _) fun _ => ?_
  split
  · exact matched_queryHart hlook p
  · exact Twins.pure _
  · exact Twins.bind (matched_takeReply p .bootCpu) fun _ =>
      Twins.bind (matched_bootHart hlook) fun _ => Twins.pure _

theorem matched_probeAndAllocate (hlook : Deaf look) :
    Matched look (probeAndAllocate : Host φ FirmwareError MapBuffer) probeAndAllocate := by
  unfold probeAndAllocate
  refine Twins.bind (matched_call (hlook.memoryMap _) _) fun answer => ?_
  split
  · exact Twins.throw trivial
  · exact Twins.throw trivial
  · refine Twins.unseen_bind (unseen_say hlook _) (unseen_say hlook _) ?_
    dsimp only
    split
    · exact Twins.throw trivial
    · refine Twins.bind (matched_call (hlook.allocate _) _) fun granted => ?_
      split
      · exact Twins.throw trivial
      · exact Twins.unseen_bind (unseen_say hlook _) (unseen_say hlook _) (Twins.pure _)

theorem matched_quiesce (hlook : Deaf look) :
    Matched look (quiesce : Host φ FirmwareError Unit) quiesce :=
  matched_call (fun f g h => ⟨rfl, hlook.quiesce f g h⟩) _

theorem matched_fillAndExit (hlook : Deaf look) (buffer : MapBuffer) :
    Matched look (fillAndExit buffer : Host φ FirmwareError MemoryMapInfo) (fillAndExit buffer) := by
  unfold fillAndExit
  refine Twins.bind (matched_call (hlook.memoryMap _) _) fun answer => ?_
  split
  · exact Twins.throw trivial
  · exact Twins.throw trivial
  · refine Twins.bind (matched_call (hlook.exit _) _) fun left => ?_
    split
    · exact Twins.throw trivial
    · exact Twins.pure _

end Host

end BootLoader
