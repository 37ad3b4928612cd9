import BootLoader.Proofs.Handoff.Context
import BootLoader.Proofs.Handoff.Integrity
import Mathlib.Logic.Function.Basic

/-! The serial lines before a boot has initialised its platform. Nothing is sent on them then but
the lines of the log, and these only where the logger copies them, on the line of the bound
platform; until the boot fails: the text of a failure is sent whether or not the line has been set
up. -/

namespace BootLoader

variable {φ μ ε α β : Type}

/-! ## What a line hears -/

/-- A serial line of a platform after a text was sent there. -/
def Platform.heard (target : Option Arch) (p : Platform) (u : Uart) (s : String) : Uart :=
  (p.write target u s).2

namespace Machine

/-- The serial lines, by the number of their platform. -/
def uarts (m : Machine) (i : Nat) : Uart := (m.devices i).uart

def traceAll (m : Machine) (texts : List String) : Machine := texts.foldl trace m

/-- Bound to the platform, if there is one and the machine is not bound yet. -/
def offer (m : Machine) (p : Option Platform) : Machine := { m with bound := m.bound.or p }

variable {m m' : Machine} {p q : Platform}

theorem uarts_setDevice {d : Device} (h : d.uart = (m.device p).uart) :
    (m.setDevice p d).uarts = m.uarts := by
  funext i
  unfold uarts setDevice
  dsimp only
  split
  · rename_i hi
    rw [h, hi]
    rfl
  · rfl

theorem trace_of_unbound (h : m.bound = none) (s : String) : m.trace s = m := by
  rw [trace, h]

theorem uarts_trace (h : m.bound = some q) (s : String) :
    (m.trace s).uarts = Function.update m.uarts q.id (q.heard m.target (m.uarts q.id) s) := by
  rw [trace, h]
  funext i
  by_cases hi : i = q.id <;> simp [hi, uarts, writeText, Platform.heard, setDevice, device]

@[simp] theorem traceAll_nil (m : Machine) : m.traceAll [] = m := rfl

@[simp] theorem traceAll_cons (m : Machine) (s : String) (texts : List String) :
    m.traceAll (s :: texts) = (m.trace s).traceAll texts := rfl

theorem traceAll_append (m : Machine) (texts texts' : List String) :
    m.traceAll (texts ++ texts') = (m.traceAll texts).traceAll texts' := List.foldl_append

theorem traceAll_of_unbound (h : m.bound = none) (texts : List String) : m.traceAll texts = m := by
  induction texts with
  | nil => rfl
  | cons s texts ih => rw [traceAll_cons, trace_of_unbound h, ih]

/-- What the serial lines have no part in does not change by what is sent on them. -/
theorem view_traceAll {τ : Type} (view : Machine → τ)
    (h : ∀ (m : Machine) p u, view (m.setDevice p { m.device p with uart := u }) = view m)
    (m : Machine) (texts : List String) : view (m.traceAll texts) = view m := by
  induction texts generalizing m with
  | nil => rfl
  | cons s texts ih => rw [traceAll_cons, ih, view_trace view h]

theorem uarts_traceAll (h : m.bound = some q) (texts : List String) :
    (m.traceAll texts).uarts =
      Function.update m.uarts q.id (texts.foldl (q.heard m.target) (m.uarts q.id)) := by
  induction texts generalizing m with
  | nil => simp
  | cons s texts ih =>
    rw [traceAll_cons, ih ((m.bound_trace s).trans h), uarts_trace h, target_trace]
    simp

/-- What a line hears depends on the lines, the binding and the target alone. -/
theorem uarts_traceAll_congr (huarts : m.uarts = m'.uarts) (hbound : m.bound = m'.bound)
    (htarget : m.target = m'.target) (texts : List String) :
    (m.traceAll texts).uarts = (m'.traceAll texts).uarts := by
  cases hm : m.bound with
  | none => rw [traceAll_of_unbound hm, traceAll_of_unbound (hbound ▸ hm), huarts]
  | some q => rw [uarts_traceAll hm, uarts_traceAll (hbound ▸ hm), huarts, htarget]

theorem offer_of_bound (h : m.bound = some q) (p : Option Platform) : m.offer p = m := by
  obtain ⟨target, bound, devices, logger, trail⟩ := m
  subst h
  rfl

@[simp] theorem offer_none (m : Machine) : m.offer none = m := by simp [offer]

@[simp] theorem bound_offer (m : Machine) (p : Option Platform) :
    (m.offer p).bound = m.bound.or p := rfl

/-- What is offered again makes no difference. -/
theorem offer_of_offered {p : Option Platform} (h : m'.bound = (m.offer p).bound) :
    m'.offer p = m' := by
  obtain ⟨target, bound, devices, logger, trail⟩ := m'
  subst h
  simp [offer, Option.or_assoc]

end Machine

theorem Device.uart_reply (d : Device) (k : Hook) : (d.reply k).2.uart = d.uart := by
  unfold reply
  split <;> rfl

variable [Firmware φ]

/-! ## The log -/

namespace World

def offer (w : World φ) (p : Option Platform) : World φ := { w with machine := w.machine.offer p }

/-- The machine stays bound to what it was bound to. The lines went to the console, and if the
logger copies them, to the line of that platform; no serial line heard anything else. -/
structure Told (lines : List Line) (w w' : World φ) : Prop where
  bound : w'.machine.bound = w.machine.bound
  target : w'.machine.target = w.machine.target
  logger : w'.machine.logger = w.machine.logger
  firmware : w'.firmware = lines.foldl (fun f line => Console.print line f) w.firmware
  uarts : w'.machine.uarts =
    if w.machine.logger.toSerial then (w.machine.traceAll (lines.map Line.render)).uarts
    else w.machine.uarts

variable {w w' w'' : World φ} {lines lines' : List Line}

theorem Told.refl (w : World φ) : w.Told [] w := ⟨rfl, rfl, rfl, rfl, by split <;> rfl⟩

theorem Told.trans (h : w.Told lines w') (h' : w'.Told lines' w'') : w.Told (lines ++ lines') w'' where
  bound := h'.bound.trans h.bound
  target := h'.target.trans h.target
  logger := h'.logger.trans h.logger
  firmware := by rw [h'.firmware, h.firmware, List.foldl_append]
  uarts := by
    have hall := h'.uarts
    rw [h.logger] at hall
    rw [hall]
    have hfirst := h.uarts
    split at hfirst
    · rename_i hlogger
      rw [if_pos hlogger, if_pos hlogger, List.map_append, Machine.traceAll_append]
      refine Machine.uarts_traceAll_congr hfirst (h.bound.trans ?_) (h.target.trans ?_) _
      · exact (Machine.view_traceAll Machine.bound (fun _ _ _ => rfl) _ _).symm
      · exact (Machine.view_traceAll Machine.target (fun _ _ _ => rfl) _ _).symm
    · rename_i hlogger
      rw [if_neg hlogger, if_neg hlogger, hfirst]

def Heard (w w' : World φ) : Prop := ∃ lines, w.Told lines w'

instance : IsPreorder (World φ) Heard where
  refl w := ⟨[], .refl w⟩
  trans _ _ _ := fun ⟨_, h⟩ ⟨_, h'⟩ => ⟨_, h.trans h'⟩

theorem heard_say (w : World φ) (line : Line) : w.Heard (w.say line) := by
  unfold say
  dsimp only
  split
  · refine ⟨[line], ?_, ?_, ?_, rfl, ?_⟩
    · split
      · exact w.machine.bound_trace _
      · rfl
    · split
      · exact w.machine.target_trace _
      · rfl
    · split
      · exact w.machine.logger_trace _
      · rfl
    · dsimp only
      split <;> rfl
  · exact refl_of Heard w

/-- The machine changed, but nothing was sent. -/
theorem heard_machine {m : Machine} (hbound : m.bound = w.machine.bound)
    (htarget : m.target = w.machine.target) (hlogger : m.logger = w.machine.logger)
    (huarts : m.uarts = w.machine.uarts) : w.Heard { w with machine := m } :=
  ⟨[], hbound, htarget, hlogger, rfl, huarts.trans (by split <;> rfl)⟩

end World

open World (Heard)

namespace Host

theorem heard_takeReply (p : Platform) (k : Hook) :
    Keeps Heard (takeReply p k : Host φ PlatformError Unit) := by
  intro w
  have hreply := Device.uart_reply (w.machine.device p) k
  have hset : w.Heard { w with machine := w.machine.setDevice p ((w.machine.device p).reply k).2 } :=
    World.heard_machine rfl rfl rfl (Machine.uarts_setDevice hreply)
  rw [takeReply_apply]
  rcases h : (w.machine.device p).reply k with ⟨_ | e, d⟩ <;> rw [h] at hset <;> exact hset

theorem heard_plainHook (p : Platform) (k : Hook) :
    Keeps Heard (plainHook p k : Host φ PlatformError Unit) := by
  unfold plainHook
  refine Keeps.bind (Keeps.modify fun w => World.heard_machine rfl rfl rfl rfl) fun _ => ?_
  split
  · split
    · exact keeps_native p.arch
    · exact Keeps.pure ()
  · exact heard_takeReply p k

/-- Once the platform is offered, only the log is heard. -/
theorem heard_publish (p : Platform) (w : World φ) :
    (w.offer (some p)).Heard (final (publish p w)) := by
  unfold World.offer
  cases hbound : w.machine.bound with
  | none =>
    have hoffer : w.machine.offer (some p) = { w.machine with bound := some p } := by
      simp [Machine.offer, hbound]
    obtain ⟨line, hpublish⟩ := publish_of_unbound p hbound
    rw [hpublish, hoffer]
    exact World.heard_say _ line
  | some q =>
    rw [publish_of_bound p hbound, Machine.offer_of_bound hbound]
    split <;> exact refl_of Heard w

end Host

/-- The states after the platform is initialised, its serial line included. -/
def BootState.initialised : BootState → Bool
  | .detect | .earlyArchInit | .generalArchInit => false
  | _ => true

namespace Boot

abbrev Calm (s t : Session φ μ) : Prop := s.world.Heard t.world

instance : IsPreorder (Session φ μ) Calm where
  refl s := refl_of Heard s.world
  trans _ _ _ h h' := trans_of Heard h h'

theorem calm_inWorld {wrap : ε → BootError} {x : Host φ ε α} (hx : Keeps Heard x) :
    Keeps Calm (inWorld wrap x : Boot φ μ α) := (keeps_inWorld hx).mono fun _ _ h => h.1

theorem calm_platform : Keeps Calm (platform : Boot φ μ Platform) :=
  (keeps_platform (R := Heard)).mono fun _ _ h => h.1

theorem calm_hook (p : Platform) (k : Hook) : Keeps Calm (hook p k : Boot φ μ Unit) :=
  calm_inWorld (Host.heard_plainHook p k)

theorem heard_detect (s : Session φ μ) :
    (s.world.offer s.config.platform).Heard (final (detect s)).world := by
  cases hp : s.config.platform with
  | none =>
    have hdetect : detect s = .error (.config .unsupportedArch) s := by
      unfold detect
      rw [get_bind, hp]
      rfl
    rw [hdetect, World.offer, Machine.offer_none]
    exact refl_of Heard s.world
  | some p =>
    have hoffered := Host.heard_publish p s.world
    cases hpublish : Host.publish p s.world with
    | ok _ f =>
      rw [hpublish] at hoffered
      obtain ⟨line, hdetect⟩ := detect_of_publish hp (inWorld_of_ok hpublish)
      obtain ⟨w, c, hw, -, hsettled⟩ := settle_cases World.heard_say
        (s := { s with world := f.say line, context := found s.context p f.firmware }) rfl
      have hheard := trans_of Heard hoffered (trans_of Heard (f.heard_say line) hw)
      rw [hdetect]
      rcases hsettled with ⟨-, -, h⟩ | ⟨_, h⟩ <;> rw [h] <;> exact hheard
    | error e f =>
      rw [hpublish] at hoffered
      rw [detect_of_unpublished hp hpublish]
      exact hoffered

theorem calm_earlyInit : Keeps Calm (earlyInit : Boot φ μ Unit) :=
  Keeps.bind calm_platform fun p => calm_hook p .earlyInit

theorem sayAll_ne_error (texts : List String) (s t : Session φ μ) (e : BootError) :
    (texts.forM (say .info) : Boot φ μ Unit) s ≠ .error e t := by
  induction texts generalizing s with
  | nil => exact nofun
  | cons text texts ih => exact ih _

/-- Nothing fails once the serial line is set up, so where this fails nothing has been sent. -/
theorem calm_generalInit : Fails Calm (generalInit : Boot φ μ Unit) := by
  refine Fails.bind calm_platform fun p => ?_
  refine Fails.bind (calm_hook p .init) fun _ => ?_
  refine Fails.bind (calm_hook p .memoryInit) fun _ => ?_
  refine Fails.bind (calm_hook p .setupDirectMapping) fun _ => ?_
  refine Fails.bind (calm_hook p .serialInit) fun _ => ?_
  intro s e t h
  rw [trace, onMachine, modify_bind, get_bind] at h
  exact absurd h (sayAll_ne_error _ _ _ _)

/-- What does not get past the initialisation of the platform is heard of in the log alone. -/
theorem calm_action [Mapping μ] {state : BootState} (h : state.initialised = false)
    (hstate : state ≠ .detect) : Fails Calm (action state : Boot φ μ Unit) ∧
      (state.next.initialised = false → Keeps Calm (action state : Boot φ μ Unit)) := by
  cases state with
  | detect => exact absurd rfl hstate
  | earlyArchInit => exact ⟨calm_earlyInit.fails, fun _ => calm_earlyInit⟩
  | generalArchInit => exact ⟨calm_generalInit, nofun⟩
  | _ => cases h

end Boot

namespace Session

variable [Mapping μ]

theorem initialised_of_stepped {s : Session φ μ} (h : s.stepped.state.initialised = false) :
    s.state.initialised = false := by
  rcases s.stepped_cases with ⟨t, -, hstepped⟩ | ⟨e, herror⟩
  · rw [hstepped] at h
    change s.state.next.initialised = false at h
    cases hs : s.state <;> rw [hs] at h <;> first | rfl | cases h
  · rwa [state_of_step_error (Boot.step_of_error herror)] at h

theorem heard_stepped_of_detect {s : Session φ μ} (h : s.state = .detect) :
    (s.announced.world.offer s.config.platform).Heard s.stepped.world := by
  have hheard := Boot.heard_detect s.announced
  have haction : Boot.action s.state s.announced = Boot.detect s.announced := by
    rw [h]
    rfl
  rw [← haction] at hheard
  rcases s.stepped_cases with ⟨t, hok, hstepped⟩ | ⟨e, herror⟩
  · rw [hok] at hheard
    rw [hstepped]
    exact hheard
  · rwa [herror] at hheard

theorem heard_stepped {s : Session φ μ} (hs : s.state ≠ .detect)
    (h : s.stepped.state.initialised = false) : s.announced.world.Heard s.stepped.world := by
  obtain ⟨hfails, hkeeps⟩ := Boot.calm_action (φ := φ) (μ := μ) (initialised_of_stepped h) hs
  rcases s.stepped_cases with ⟨t, hok, hstepped⟩ | ⟨e, herror⟩
  · rw [hstepped] at h ⊢
    have hcalm : s.announced.world.Heard t.world := (hkeeps h).of_ok hok
    exact hcalm
  · exact hfails _ _ _ herror

/-- From the second line on, and with the platform bound, only the log is heard. -/
theorem heard_afterSteps {world : World φ} {memory : μ} {config : BootConfig} {n : Nat}
    (h : ((start world memory config).afterSteps (n + 1)).state.initialised = false) :
    ((start world memory config).announced.world.offer config.platform).Heard
      ((start world memory config).afterSteps (n + 1)).world := by
  induction n with
  | zero => exact heard_stepped_of_detect rfl
  | succ n ih =>
    rw [afterSteps_succ] at h ⊢
    have hplatform : ((start world memory config).afterSteps (n + 1)).config.platform =
        config.platform := (admits_afterSteps (start world memory config) (n + 1)).platform
    generalize (start world memory config).afterSteps (n + 1) = t at h ih hplatform ⊢
    have hline : t.world.Heard t.announced.world := t.world.heard_say _
    have hannounced := trans_of Heard (ih (initialised_of_stepped h)) hline
    refine trans_of Heard hannounced ?_
    by_cases hs : t.state = .detect
    · have hheard := heard_stepped_of_detect hs
      obtain ⟨lines, htold⟩ := hannounced
      have hsame : t.announced.world.offer t.config.platform = t.announced.world := by
        unfold World.offer
        rw [hplatform, Machine.offer_of_offered htold.bound]
      rwa [hsame] at hheard
    · exact heard_stepped hs h

/-- Until its platform is initialised, a boot sends nothing on a serial line but its log. The line
that opens the first step is sent if the machine is bound already; from then on it is bound to the
platform of the boot, if it is bound at all, and what goes to the console goes to the line of that
platform, if the logger copies it. A boot that fails before that logs its failure and sends the text
of it all the same. -/
theorem only_log_until_initialised (world : World φ) (memory : μ) (config : BootConfig) :
    let s := start world memory config
    let v := s.announced.world.offer config.platform
    (∀ n, (s.afterSteps (n + 1)).state.initialised = false →
      ∃ lines, v.Told lines (s.afterSteps (n + 1)).world) ∧
    ∀ e t, Boot.runUntilTransfer s = .error e t → t.state.initialised = false →
      (∃ lines, v.Told lines t.world) ∧
        let failure : Line :=
          ⟨.error, "boot_handoff::sequencer", s!"Boot failed ({e.errorClass.inspect}): {e}"⟩
        s.run.2.world.machine =
          (t.world.say failure).machine.trace s!"[ERROR] boot failed: {e}\n" := by
  refine ⟨fun n => heard_afterSteps, fun e t hrun ht => ?_⟩
  obtain ⟨k, rfl⟩ := Boot.runUntilTransfer_eq_error hrun
  exact ⟨heard_afterSteps ht, by rw [run_of_error hrun]; rfl⟩

omit [Mapping μ] in
theorem machine_say_of_quiet {w : World φ} (h : w.machine.logger.toSerial = false) (line : Line) :
    (w.say line).machine = w.machine := by
  rcases w.machine_say_cases line with hsame | ⟨hlogger, -⟩
  · exact hsame
  · rw [h] at hlogger
    cases hlogger

/-- Until its platform is initialised, a boot whose logger keeps off the serial lines sends nothing
on any. If it fails before that, it sends the text of its failure on the line of the bound platform
all the same. -/
theorem serial_silent_until_initialised {world : World φ}
    (hlogger : world.machine.logger.toSerial = false) (memory : μ) (config : BootConfig) :
    (∀ n, ((start world memory config).afterSteps n).state.initialised = false →
      ((start world memory config).afterSteps n).world.machine.uarts = world.machine.uarts) ∧
    ∀ e s, Boot.runUntilTransfer (start world memory config) = .error e s → s.state.initialised = false →
      s.world.machine.uarts = world.machine.uarts ∧
        (start world memory config).run.2.world.machine =
          s.world.machine.trace s!"[ERROR] boot failed: {e}\n" := by
  obtain ⟨hsteps, hruns⟩ := only_log_until_initialised world memory config
  -- the line that opens the first step was kept off the serial lines too
  have hannounced : (start world memory config).announced.world.machine = world.machine :=
    machine_say_of_quiet hlogger _
  have hquiet : ∀ {lines w}, ((start world memory config).announced.world.offer config.platform).Told
      lines w → w.machine.logger.toSerial = false ∧ w.machine.uarts = world.machine.uarts := by
    intro lines w htold
    have hkept := htold.logger
    have huarts := htold.uarts
    rw [World.offer, hannounced] at hkept huarts
    change w.machine.logger = world.machine.logger at hkept
    change _ = if world.machine.logger.toSerial then _ else _ at huarts
    rw [hlogger] at huarts
    exact ⟨hkept ▸ hlogger, huarts⟩
  refine ⟨fun n hn => ?_, fun e s hrun hs => ?_⟩
  · cases n with
    | zero => rfl
    | succ n =>
      obtain ⟨lines, htold⟩ := hsteps n hn
      exact (hquiet htold).2
  · obtain ⟨⟨lines, htold⟩, hfail⟩ := hruns e s hrun hs
    obtain ⟨hkept, huarts⟩ := hquiet htold
    exact ⟨huarts, hfail.trans (by rw [machine_say_of_quiet hkept])⟩

end Session

def Sample.unready : World ScriptedFirmware :=
  let replies : Hook → List (Option PlatformError)
    | .earlyInit => [some (.foreignTarget .aarch64)]
    | _ => []
  { world with machine := { world.machine with devices := fun _ => { Device.fresh with replies } } }

namespace Session

theorem serial_silent_until_initialised_sample :
    ∃ s : Session ScriptedFirmware Memory, s.world.machine.uarts = Sample.unready.machine.uarts ∧
      (start Sample.unready Sample.memory Sample.config).run.2.world.machine = s.world.machine.trace
        s!"[ERROR] boot failed: {BootError.platform (.foreignTarget .aarch64)}\n" := by
  have hlogger : Sample.unready.machine.logger.toSerial = false := rfl
  have hsilent := serial_silent_until_initialised hlogger Sample.memory Sample.config
  have hrun : failure? (Boot.runUntilTransfer (start Sample.unready Sample.memory Sample.config)) =
      some (.platform (.foreignTarget .aarch64)) := by decide +kernel
  exact ⟨_, hsilent.2 _ _ (eq_error_of_failure? hrun) (by decide +kernel)⟩

/-- So a boot may send on a serial line that was never set up. -/
theorem serial_used_uninitialised :
    let r := (start Sample.unready Sample.memory Sample.config).run
    r.1 = .halted ∧ r.2.marks = [.hook .earlyInit] ∧
      (r.2.world.machine.uarts Sample.platform.id).received ≠ [] := by
  decide +kernel

end Session

end BootLoader
