import BootLoader.Proofs.Handoff.SerialLine
import BootLoader.Proofs.Machine.Calls
import Mathlib.Data.List.Induction
import Mathlib.Data.List.TakeWhile

/-! Several boots in one process share its machine, and with it the binding. Whoever offers a
platform first binds the machine to it. From then on that very platform is what everybody finds, the
line of that platform is the only one that hears anything, and any other platform is refused. -/

namespace BootLoader

variable {ι φ μ : Type}

/-! ## What a machine is told -/

inductive Saying where
  | logged (line : Line)
  | traced (text : String)

namespace Saying

def text : Saying → String
  | logged line => line.render
  | traced text => text

def traced? : Saying → Option String
  | logged _ => none
  | traced text => some text

end Saying

namespace Machine

variable {m m' m'' : Machine} {q : Platform}

/-- From the one machine to the other, exactly these texts were traced, in this order, and nothing
else was sent but lines of the logger where it writes to the serial line. -/
def Traced (texts : List String) (m m' : Machine) : Prop :=
  ∃ said : List Saying, m' = m.traceAll (said.map (·.text)) ∧ said.filterMap (·.traced?) = texts ∧
    (m.logger.toSerial = false → said = texts.map .traced)

theorem bound_traceAll (m : Machine) (texts : List String) : (m.traceAll texts).bound = m.bound :=
  view_traceAll Machine.bound (fun _ _ _ => rfl) m texts

theorem logger_traceAll (m : Machine) (texts : List String) :
    (m.traceAll texts).logger = m.logger := view_traceAll logger (fun _ _ _ => rfl) m texts

namespace Traced

variable {texts texts' : List String}

theorem refl (m : Machine) : Traced [] m m := ⟨[], rfl, rfl, fun _ => rfl⟩

theorem one (m : Machine) (s : String) : Traced [s] m (m.trace s) :=
  ⟨[.traced s], rfl, rfl, fun _ => rfl⟩

theorem trans (h : Traced texts m m') (h' : Traced texts' m' m'') :
    Traced (texts ++ texts') m m'' := by
  obtain ⟨said, rfl, htexts, hquiet⟩ := h
  obtain ⟨said', rfl, htexts', hquiet'⟩ := h'
  rw [logger_traceAll] at hquiet'
  refine ⟨said ++ said', ?_, ?_, fun hlogger => ?_⟩
  · rw [List.map_append, traceAll_append]
  · rw [List.filterMap_append, htexts, htexts']
  · rw [hquiet hlogger, hquiet' hlogger, List.map_append]

theorem bound (h : Traced texts m m') : m'.bound = m.bound := by
  obtain ⟨said, rfl, -, -⟩ := h
  exact m.bound_traceAll _

theorem of_unbound (h : Traced texts m m') (hm : m.bound = none) : m' = m := by
  obtain ⟨said, rfl, -, -⟩ := h
  exact traceAll_of_unbound hm _

/-- What is said on a machine that is not bound leaves no mark on the line it is bound to later. -/
theorem offer (h : Traced [] m m') (p : Option Platform) : Traced [] (m.offer p) (m'.offer p) := by
  cases hbound : m.bound with
  | none =>
    rw [h.of_unbound hbound]
    exact .refl _
  | some q => rwa [offer_of_bound hbound, offer_of_bound (h.bound.trans hbound)]

/-- Only the line of the bound platform hears anything. -/
theorem uarts (h : Traced texts m m') (hbound : m.bound = some q) :
    ∃ said : List Saying, said.filterMap (·.traced?) = texts ∧
      (m.logger.toSerial = false → said = texts.map .traced) ∧ m'.uarts =
        Function.update m.uarts q.id
          ((said.map (·.text)).foldl (q.heard m.target) (m.uarts q.id)) := by
  obtain ⟨said, rfl, htexts, hquiet⟩ := h
  exact ⟨said, htexts, hquiet, uarts_traceAll hbound _⟩

end Traced

end Machine

open Machine (Traced)

def World.Logged (w w' : World φ) : Prop := Traced [] w.machine w'.machine

instance : IsPreorder (World φ) World.Logged where
  refl w := .refl w.machine
  trans _ _ _ h h' := h.trans h'

theorem World.logged_say [Console φ] (w : World φ) (line : Line) : w.Logged (w.say line) := by
  rcases w.machine_say_cases line with hsame | ⟨hlogger, htrace⟩
  · rw [Logged, hsame]
    exact .refl w.machine
  · exact ⟨[.logged line], htrace, rfl, by simp [hlogger]⟩

namespace Host

variable {w : World φ}

theorem active_of_unbound (h : w.machine.bound = none) : active w = .error .unbound w := by
  rw [active, get_bind, h]
  rfl

theorem active_of_bound {q : Platform} (h : w.machine.bound = some q) : active w = .ok q w := by
  rw [active, get_bind, h]
  rfl

@[simp] theorem final_active (w : World φ) : final (active w) = w := by
  cases h : w.machine.bound with
  | none =>
    rw [active_of_unbound h]
    rfl
  | some q =>
    rw [active_of_bound h]
    rfl

theorem publish_traced [Console φ] (p : Platform) (w : World φ) :
    Traced [] (w.machine.offer (some p)) (final (publish p w)).machine := by
  cases hbound : w.machine.bound with
  | none =>
    have hoffer : w.machine.offer (some p) = { w.machine with bound := some p } := by
      simp [Machine.offer, hbound]
    obtain ⟨line, hpublish⟩ := publish_of_unbound p hbound
    rw [hpublish, hoffer]
    exact World.logged_say _ line
  | some q =>
    rw [publish_of_bound p hbound, Machine.offer_of_bound hbound]
    split <;> exact .refl w.machine

end Host

/-! ## The first state of a boot -/

/-- A platform that the machine can be bound to is taken, whatever there is to boot. -/
theorem Boot.detect_of_free [Firmware φ] {s : Session φ μ} {p : Platform}
    (hp : s.config.platform = some p) (hfree : ∀ q, s.world.machine.bound = some q → q.id = p.id) :
    ∃ t, Traced [] (s.world.machine.offer (some p)) t.world.machine ∧ t.context.platform = some p ∧
      t.config.platform = s.config.platform ∧
      (detect s = .ok () t ∨ ∃ cause, detect s = .error (.config cause) t) := by
  obtain ⟨f, hpublish⟩ := Host.publish_of_free hfree
  have hoffered := Host.publish_traced p s.world
  rw [hpublish] at hoffered
  obtain ⟨line, hdetect⟩ := detect_of_publish hp (inWorld_of_ok hpublish)
  obtain ⟨w, c, hw, hadmits, hsettled⟩ := settle_cases World.logged_say
    (s := { s with world := f.say line, context := found s.context p f.firmware }) rfl
  have hconfig : c.platform = s.config.platform := by
    rcases hadmits with rfl | ⟨-, rfl⟩ <;> rfl
  have hmachine : Traced [] (s.world.machine.offer (some p)) w.machine :=
    hoffered.trans ((f.logged_say line).trans hw)
  rw [← hdetect] at hsettled
  exact ⟨_, hmachine, rfl, hconfig, hsettled.imp_left fun h => h.2.2⟩

namespace Session

variable [Firmware φ] [Mapping μ] {s : Session φ μ} {p q : Platform}

/-- The first state takes the platform; if it fails after that, then for what was to be booted. -/
structure Binds (s : Session φ μ) (p : Platform) : Prop where
  machine : Traced [] (s.world.machine.offer (some p)) s.stepped.world.machine
  context : s.stepped.context.platform = some p
  config : s.stepped.config.platform = s.config.platform
  result : Boot.step s = .ok .earlyArchInit s.stepped ∨
    ∃ cause, Boot.step s = .error (.config cause) s.stepped

/-- The first state finds the machine bound to another platform. Nothing happens after the line that
opens the step. -/
structure Refuses (s : Session φ μ) (q p : Platform) : Prop where
  step : Boot.step s = .error (.platform (.alreadyBound q.arch p.arch)) s.announced
  machine : Traced [] s.world.machine s.announced.world.machine
  calls : s.announced.world.calls = s.world.calls

omit [Mapping μ] in
theorem machine_announced (s : Session φ μ) : Traced [] s.world.machine s.announced.world.machine :=
  s.world.logged_say _

theorem action_announced (hs : s.state = .detect) :
    Boot.action s.state s.announced = Boot.detect s.announced := by
  rw [hs]
  rfl

/-- With no platform for the machine, nothing is bound. -/
theorem step_of_unsupported (hs : s.state = .detect) (hp : s.config.platform = none) :
    Boot.step s = .error (.config .unsupportedArch) s.announced := by
  apply Boot.step_of_error
  rw [action_announced hs, Boot.detect, get_bind]
  have hannounced : s.announced.config.platform = none := hp
  rw [hannounced]
  rfl

theorem refuses_of_taken (hs : s.state = .detect) (hp : s.config.platform = some p)
    (hbound : s.world.machine.bound = some q) (hid : q.id ≠ p.id) : s.Refuses q p where
  step := by
    have hannounced : s.announced.world.machine.bound = some q := (World.bound_say _ _).trans hbound
    have hdetect := Boot.detect_of_unpublished (s := s.announced) hp
      (Host.publish_of_taken hannounced hid)
    exact Boot.step_of_error ((action_announced hs).trans hdetect)
  machine := s.machine_announced
  calls := World.calls_of_trail (s.world.trail_say _)

theorem binds_of_free (hs : s.state = .detect) (hp : s.config.platform = some p)
    (hfree : ∀ q, s.world.machine.bound = some q → q.id = p.id) : s.Binds p := by
  have hannounced : s.announced.world.machine.bound = s.world.machine.bound := World.bound_say _ _
  rw [← hannounced] at hfree
  obtain ⟨t, hmachine, hplatform, hconfig, hdetect⟩ := Boot.detect_of_free (s := s.announced) hp hfree
  have hoffered := (s.machine_announced.offer (some p)).trans hmachine
  rw [← action_announced hs] at hdetect
  rcases hdetect with hok | ⟨cause, herror⟩
  · have hstepped := stepped_of_ok hok
    have hstep : Boot.step s = .ok .earlyArchInit s.stepped := by
      rw [hstepped, Boot.step_of_ok hok, hs]
      rfl
    exact ⟨by rwa [hstepped], by rwa [hstepped], by rwa [hstepped], .inl hstep⟩
  · have hstepped := stepped_of_error herror
    have hstep : Boot.step s = .error (.config cause) s.stepped := by
      rw [hstepped, Boot.step_of_error herror]
    exact ⟨by rwa [hstepped], by rwa [hstepped], by rwa [hstepped], .inr ⟨cause, hstep⟩⟩

/-- Whatever comes of it, a first step offers the machine the platform of its configuration. Without
a platform, the boot stays where it is. -/
theorem offers_stepped (hs : s.state = .detect) :
    Traced [] (s.world.machine.offer s.config.platform) s.stepped.world.machine ∧
      s.stepped.config.platform = s.config.platform ∧
      (s.config.platform = none → s.stepped.state = .detect) := by
  cases hp : s.config.platform with
  | none =>
    have hstepped : s.stepped = s.announced := by
      rw [stepped, step_of_unsupported hs hp]
      rfl
    rw [hstepped, Machine.offer_none]
    exact ⟨s.machine_announced, hp, fun _ => hs⟩
  | some p =>
    by_cases hfree : ∀ q, s.world.machine.bound = some q → q.id = p.id
    · have hbinds := binds_of_free hs hp hfree
      exact ⟨hbinds.machine, hbinds.config.trans hp, by simp⟩
    · push Not at hfree
      obtain ⟨q, hbound, hid⟩ := hfree
      have hstepped : s.stepped = s.announced := by
        rw [stepped, (refuses_of_taken hs hp hbound hid).step]
        rfl
      rw [hstepped, Machine.offer_of_bound hbound]
      exact ⟨s.machine_announced, hp, by simp⟩

end Session

/-! ## Histories -/

inductive BindingOp (ι : Type) where
  | publish (p : Platform)
  | active
  | trace (text : String)
  /-- a boot runs its first state -/
  | detect (i : ι)

def BindingOp.text? : BindingOp ι → Option String
  | trace text => some text
  | _ => none

structure Process (ι φ μ : Type) where
  /-- the machine, which they share -/
  machine : Machine
  /-- where lines go that are not a boot's -/
  console : φ
  /-- each with its own firmware; for the machine, the one that they share counts -/
  boots : ι → Session φ μ

namespace Process

variable {P : Process ι φ μ}

def world (P : Process ι φ μ) : World φ := ⟨P.machine, P.console⟩

def boot (P : Process ι φ μ) (i : ι) : Session φ μ :=
  { P.boots i with world := ⟨P.machine, (P.boots i).world.firmware⟩ }

def withWorld (P : Process ι φ μ) (w : World φ) : Process ι φ μ :=
  { P with machine := w.machine, console := w.firmware }

def offered? (P : Process ι φ μ) : BindingOp ι → Option Platform
  | .publish p => some p
  | .active | .trace _ => none
  | .detect i => (P.boots i).config.platform

def tracedAfter (P : Process ι φ μ) (ops : List (BindingOp ι)) : List String :=
  (ops.dropWhile fun op => (P.offered? op).isNone).filterMap (·.text?)

/-- No operation both offers a platform and traces a text. -/
theorem text?_of_offered {op : BindingOp ι} (h : P.offered? op ≠ none) : op.text? = none := by
  cases op with
  | trace text => exact absurd rfl h
  | _ => rfl

theorem dropWhile_eq_nil {ops : List (BindingOp ι)} :
    ops.dropWhile (fun op => (P.offered? op).isNone) = [] ↔ ops.findSome? P.offered? = none := by
  simp [List.dropWhile_eq_nil_iff, List.findSome?_eq_none_iff]

/-- The operation comes after the first offer. -/
theorem tracedAfter_concat_of_some {ops : List (BindingOp ι)} (op : BindingOp ι)
    (h : ops.findSome? P.offered? ≠ none) :
    P.tracedAfter (ops ++ [op]) = P.tracedAfter ops ++ op.text?.toList := by
  have hbegun : (ops.dropWhile fun op => (P.offered? op).isNone) ≠ [] := mt dropWhile_eq_nil.mp h
  cases hop : op.text? <;> simp [tracedAfter, List.dropWhile_append, hbegun, hop]

/-- The operation makes the first offer, or comes before it. -/
theorem tracedAfter_concat_of_none {ops : List (BindingOp ι)} (op : BindingOp ι)
    (h : ops.findSome? P.offered? = none) : P.tracedAfter (ops ++ [op]) = [] := by
  have hnothing : (ops.dropWhile fun op => (P.offered? op).isNone) = [] := dropWhile_eq_nil.mpr h
  cases hop : P.offered? op with
  | none => simp [tracedAfter, List.dropWhile_append, hnothing, hop]
  | some p =>
    have htext : op.text? = none := text?_of_offered (P := P) (by simp [hop])
    simp [tracedAfter, List.dropWhile_append, hnothing, hop, htext]

variable [DecidableEq ι] [Firmware φ] [Mapping μ]

/-- The process after an operation, whatever became of it. A boot that is past its first state does
not run it again. -/
def next (P : Process ι φ μ) : BindingOp ι → Process ι φ μ
  | .publish p => P.withWorld (final (Host.publish p P.world))
  | .active => P.withWorld (final (Host.active P.world))
  | .trace text => P.withWorld (final ((Host.trace text : Host φ Empty Unit) P.world))
  | .detect i =>
    if (P.boots i).state = .detect then
      let s := (P.boot i).stepped
      { P with machine := s.world.machine, boots := Function.update P.boots i s }
    else P

def after (P : Process ι φ μ) (ops : List (BindingOp ι)) : Process ι φ μ := ops.foldl next P

/-- Every boot that is past its first state has left the machine bound. -/
def Anchored (P : Process ι φ μ) : Prop :=
  ∀ i, (P.boots i).state = .detect ∨ P.machine.bound ≠ none

/-- Only its own first step changes a boot. -/
theorem boots_next (P : Process ι φ μ) (op : BindingOp ι) (i : ι) :
    (P.next op).boots i = P.boots i ∨
      op = .detect i ∧ (P.boots i).state = .detect ∧ (P.next op).boots i = (P.boot i).stepped := by
  cases op with
  | detect j =>
    unfold next
    dsimp only
    split
    · rename_i hj
      by_cases hi : i = j
      · subst hi
        exact .inr ⟨rfl, hj, Function.update_self i _ P.boots⟩
      · exact .inl (Function.update_of_ne hi _ P.boots)
    · exact .inl rfl
  | _ => exact .inl rfl

/-- An operation offers the machine its platform, and traces its text. -/
theorem machine_next (h : P.Anchored) (op : BindingOp ι) :
    Traced op.text?.toList (P.machine.offer (P.offered? op)) (P.next op).machine := by
  cases op with
  | publish p => exact Host.publish_traced p P.world
  | active =>
    have hactive : (P.next .active).machine = P.machine := by simp [next, withWorld, world]
    rw [hactive, offered?, Machine.offer_none]
    exact .refl P.machine
  | trace text =>
    rw [offered?, Machine.offer_none]
    exact .one P.machine text
  | detect i =>
    by_cases hi : (P.boots i).state = .detect
    · rw [next, if_pos hi]
      exact (Session.offers_stepped (s := P.boot i) hi).1
    · obtain ⟨q, hbound⟩ := Option.ne_none_iff_exists'.mp ((h i).resolve_left hi)
      rw [next, if_neg hi, Machine.offer_of_bound hbound]
      exact .refl P.machine

theorem bound_next (h : P.Anchored) (op : BindingOp ι) :
    (P.next op).machine.bound = P.machine.bound.or (P.offered? op) := (machine_next h op).bound

theorem offered?_next (P : Process ι φ μ) (op : BindingOp ι) : (P.next op).offered? = P.offered? := by
  funext op'
  cases op' with
  | detect i =>
    unfold offered?
    dsimp only
    rcases P.boots_next op i with hsame | ⟨-, hi, hstepped⟩
    · rw [hsame]
    · rw [hstepped]
      exact (Session.offers_stepped (s := P.boot i) hi).2.1
  | _ => rfl

theorem anchored_next (h : P.Anchored) (op : BindingOp ι) : (P.next op).Anchored := by
  intro i
  rw [bound_next h]
  rcases P.boots_next op i with hsame | ⟨rfl, hi, hstepped⟩
  · rw [hsame]
    refine (h i).imp_right fun hbound => ?_
    simp [hbound]
  · cases hp : (P.boots i).config.platform with
    | none =>
      left
      rw [hstepped]
      exact (Session.offers_stepped (s := P.boot i) hi).2.2 hp
    | some p =>
      right
      simp [offered?, hp]

/-! ## Runs -/

structure Begins (P : Process ι φ μ) : Prop where
  bound : P.machine.bound = none
  state : ∀ i, (P.boots i).state = .detect

theorem after_concat (P : Process ι φ μ) (ops : List (BindingOp ι)) (op : BindingOp ι) :
    P.after (ops ++ [op]) = (P.after ops).next op := by
  rw [after, List.foldl_append]
  rfl

theorem offered?_after (P : Process ι φ μ) (ops : List (BindingOp ι)) :
    (P.after ops).offered? = P.offered? := by
  induction ops using List.reverseRecOn with
  | nil => rfl
  | append_singleton ops op ih => rw [after_concat, offered?_next, ih]

theorem Begins.anchored_after (h : P.Begins) (ops : List (BindingOp ι)) : (P.after ops).Anchored := by
  induction ops using List.reverseRecOn with
  | nil => exact fun i => .inl (h.state i)
  | append_singleton ops op ih =>
    rw [after_concat]
    exact anchored_next ih op

/-- After a history, the machine is bound to what was offered first, and what was traced from then
on was traced there. -/
theorem Begins.machine_after (h : P.Begins) (ops : List (BindingOp ι)) :
    Traced (P.tracedAfter ops) (P.machine.offer (ops.findSome? P.offered?)) (P.after ops).machine := by
  induction ops using List.reverseRecOn with
  | nil =>
    rw [List.findSome?_nil, Machine.offer_none]
    exact .refl P.machine
  | append_singleton ops op ih =>
    have hnext := machine_next (h.anchored_after ops) op
    rw [offered?_after] at hnext
    rw [after_concat, List.findSome?_append, List.findSome?_singleton]
    cases hfirst : ops.findSome? P.offered? with
    | none =>
      simp only [hfirst, Machine.offer_none] at ih
      rw [ih.of_unbound h.bound] at hnext
      rw [tracedAfter_concat_of_none op hfirst, Option.none_or]
      cases hop : P.offered? op with
      | none =>
        simp only [hop, Machine.offer_none] at hnext
        rw [Machine.offer_none, hnext.of_unbound h.bound]
        exact .refl P.machine
      | some p =>
        have htext : op.text? = none := text?_of_offered (P := P) (by simp [hop])
        rwa [htext, hop] at hnext
    | some q =>
      have hbound : (P.after ops).machine.bound = some q := by simp [ih.bound, h.bound, hfirst]
      rw [hfirst] at ih
      rw [Machine.offer_of_bound hbound] at hnext
      rw [tracedAfter_concat_of_some op (by simp [hfirst]), Option.some_or]
      exact ih.trans hnext

theorem Begins.bound_after (h : P.Begins) (ops : List (BindingOp ι)) :
    (P.after ops).machine.bound = ops.findSome? P.offered? := by
  simp [(h.machine_after ops).bound, h.bound]

/-- Whatever happened in a process, its machine is bound to the platform that was offered first, and
to none as long as none was offered. With none, nothing has been sent on any line, and the next
platform is taken. With one, a platform is taken exactly if it is that very one; any other is
refused and changes nothing. What was traced since then has gone to the line of that platform, along
with lines of the logger if it writes there; no other line has heard anything. -/
theorem bound_to_first_offered (h : P.Begins) (ops : List (BindingOp ι)) :
    let Q := P.after ops
    match ops.findSome? P.offered? with
    | none =>
      Q.machine = P.machine ∧
      Host.active Q.world = .error .unbound Q.world ∧
      (∀ p, ∃ w, Host.publish p Q.world = .ok () w ∧ w.machine.bound = some p) ∧
      ∀ i p, P.offered? (.detect i) = some p → (Q.boot i).Binds p
    | some q =>
      Host.active Q.world = .ok q Q.world ∧
      (∀ p, Host.publish p Q.world =
        if q.id = p.id then .ok () Q.world else .error (.alreadyBound q.arch p.arch) Q.world) ∧
      (∀ i p, P.offered? (.detect i) = some p → (Q.boots i).state = .detect →
        if q.id = p.id then (Q.boot i).Binds p else (Q.boot i).Refuses q p) ∧
      ∃ said : List Saying, said.filterMap (·.traced?) = P.tracedAfter ops ∧
        (P.machine.logger.toSerial = false → said = (P.tracedAfter ops).map .traced) ∧
        Q.machine.uarts = Function.update P.machine.uarts q.id
          ((said.map (·.text)).foldl (q.heard P.machine.target) (P.machine.uarts q.id)) := by
  intro Q
  have hbound : Q.machine.bound = ops.findSome? P.offered? := h.bound_after ops
  have hmachine : Traced _ _ Q.machine := h.machine_after ops
  have hanchored : Q.Anchored := h.anchored_after ops
  have hoffered : Q.offered? = P.offered? := P.offered?_after ops
  cases hfirst : ops.findSome? P.offered? with
  | none =>
    simp only [hfirst, Machine.offer_none] at hbound hmachine
    refine ⟨hmachine.of_unbound h.bound, Host.active_of_unbound hbound, fun p => ?_, fun i p hp => ?_⟩
    · obtain ⟨line, hpublish⟩ := Host.publish_of_unbound (w := Q.world) p hbound
      exact ⟨_, hpublish, World.bound_say _ line⟩
    · rw [← hoffered] at hp
      exact Session.binds_of_free ((hanchored i).resolve_right (not_not_intro hbound)) hp
        fun q hq => by cases hbound.symm.trans hq
  | some q =>
    rw [hfirst] at hbound hmachine
    have hoffer : (P.machine.offer (some q)).bound = some q := by simp [h.bound]
    refine ⟨Host.active_of_bound hbound, fun p => Host.publish_of_bound p hbound, ?_,
      hmachine.uarts hoffer⟩
    intro i p hp hi
    rw [← hoffered] at hp
    split
    · rename_i hid
      refine Session.binds_of_free hi hp fun q' hq' => ?_
      cases hbound.symm.trans hq'
      exact hid
    · rename_i hid
      exact Session.refuses_of_taken hi hp hbound hid

end Process

namespace Sample

def twin : Platform := { platform with id := 8 }

def process : Process Bool ScriptedFirmware Memory where
  machine := world.machine
  console := world.firmware
  boots i := .start world memory { config with platform := some (if i then platform else twin) }

end Sample

/-- The first text is lost, the other two are heard by the first platform. Its twin is refused. -/
theorem Process.bound_to_first_offered_sample :
    let Q := Sample.process.after
      [.trace "a", .active, .detect true, .trace "b", .publish Sample.twin, .trace "c"]
    Host.active Q.world = .ok Sample.platform Q.world ∧
      Host.publish Sample.twin Q.world = .error (.alreadyBound .aarch64 .aarch64) Q.world ∧
      (Q.boot false).Refuses Sample.platform Sample.twin ∧
      (Q.machine.uarts Sample.platform.id).received = [98, 99] ∧
      (Q.machine.uarts Sample.twin.id).received = [] := by
  have hbegins : Sample.process.Begins := ⟨rfl, fun _ => rfl⟩
  obtain ⟨hactive, hpublish, hdetect, said, -, hquiet, huarts⟩ := bound_to_first_offered hbegins
    [.trace "a", .active, .detect true, .trace "b", .publish Sample.twin, .trace "c"]
  have hrefuses := hdetect false Sample.twin rfl rfl
  rw [if_neg (by decide)] at hrefuses
  have hsaid : said = [.traced "b", .traced "c"] := hquiet rfl
  subst hsaid
  refine ⟨hactive, (hpublish Sample.twin).trans (if_neg (by decide)), hrefuses, ?_, ?_⟩
  · rw [huarts]
    decide
  · rw [huarts]
    decide

end BootLoader
