import BootLoader.Proofs.Handoff.Setting
import BootLoader.Proofs.Machine.Muted

/-! What the quiet states of a boot depend on: the world without its serial lines, the state, the
context and the buffer. To a view that shows these, two boots that look the same look the same after
a quiet state too, whatever else tells them apart. -/

namespace BootLoader

variable {φ ψ μ τ ε α : Type}

def BootError.Fatal (e : BootError) : Prop := e.errorClass ≠ .diagnosticOnly

namespace BootError

theorem fatal_ofPlatform (e : PlatformError) : (ofPlatform e).Fatal := by
  cases e <;> exact nofun

theorem fatal_firmware (e : FirmwareError) : (firmware e).Fatal := nofun

theorem fatal_payload (role : PayloadRole) (e : Pe.PeError) : (payload role e).Fatal := nofun

theorem fatal_memory (e : MemoryError) : (memory e).Fatal := nofun

end BootError

/-- The view shows what the quiet states depend on, and what they change it shows as part of the
whole. -/
structure Reveals (look : φ → ψ) (view : Session φ μ → τ) : Prop where
  world : ∀ s t, view s = view t → s.world.mute look = t.world.mute look
  state : ∀ s t, view s = view t → s.state = t.state
  context : ∀ s t, view s = view t → s.context = t.context
  mapBuffer : ∀ s t, view s = view t → s.mapBuffer = t.mapBuffer
  withWorld : ∀ (s t : Session φ μ) (w w' : World φ), view s = view t → w.mute look = w'.mute look →
    view { s with world := w } = view { t with world := w' }
  withContext : ∀ s t (f : BootContext → BootContext), view s = view t →
    view { s with context := f s.context } = view { t with context := f t.context }
  withBuffer : ∀ s t (b : Option MapBuffer), view s = view t →
    view { s with mapBuffer := b } = view { t with mapBuffer := b }

namespace Boot

variable {look : φ → ψ} {view : Session φ μ → τ}

theorem twins_inWorld (hview : Reveals look view) {wrap : ε → BootError} (hwrap : ∀ e, (wrap e).Fatal)
    {x y : Host φ ε α} (hx : Host.Matched look x y) :
    Twins view BootError.Fatal (inWorld wrap x) (inWorld wrap y) := by
  intro s t h
  have hworld := hx _ _ (hview.world s t h)
  unfold inWorld
  generalize x s.world = r, y t.world = r' at hworld
  cases hworld with
  | ok a hw => exact .ok a (hview.withWorld s t _ _ h hw)
  | error _ hw => exact .error (hwrap _) (hview.withWorld s t _ _ h hw)

theorem twins_onContext (hview : Reveals look view) (f : BootContext → BootContext) :
    Twins view BootError.Fatal (onContext f) (onContext f) :=
  Twins.modify fun s t h => hview.withContext s t f h

theorem twins_record (hview : Reveals look view) (e : Event) :
    Twins view BootError.Fatal (record e) (record e) := by
  refine Twins.modify fun s t h => ?_
  have hworld := hview.world s t h
  exact hview.withWorld s t _ _ h
    (World.mute_machine hworld (Machine.mute_record (World.machine_mute hworld) e))

theorem unseen_trace (hview : Reveals look view) (text : String) : Unseen view (trace text) :=
  Unseen.modify fun s => hview.withWorld s s _ _ rfl (World.mute_machine rfl (Machine.mute_trace _ text))

theorem twins_platform (hview : Reveals look view) :
    Twins view BootError.Fatal (platform : Boot φ μ Platform) platform := by
  unfold platform
  refine Twins.get_bind fun s t h => ?_
  rw [hview.context s t h, hview.state s t h]
  split
  · exact Twins.pure _
  · exact Twins.throw nofun

theorem twins_takeMapBuffer (hview : Reveals look view) :
    Twins view BootError.Fatal (takeMapBuffer : Boot φ μ MapBuffer) takeMapBuffer := by
  intro s t h
  have hrest := hview.withBuffer s t none h
  rw [takeMapBuffer_apply, takeMapBuffer_apply, hview.mapBuffer s t h,
    congrArg BootError.outOfOrder (hview.state s t h)]
  cases t.mapBuffer with
  | some buffer => exact .ok buffer hrest
  | none => exact .error nofun hrest

theorem twins_hook (hview : Reveals look view) (p : Platform) (k : Hook) :
    Twins view BootError.Fatal (hook p k) (hook p k) :=
  twins_inWorld hview BootError.fatal_ofPlatform (Host.matched_plainHook p k)

variable [Firmware φ]

theorem unseen_say (hview : Reveals look view) (hlook : Deaf look) (level : Level) (text : String) :
    Unseen view (say level text) :=
  Unseen.modify fun s => hview.withWorld s s _ _ rfl (s.world.mute_say hlook _)

theorem twins_say (hview : Reveals look view) (hlook : Deaf look) (level level' : Level)
    (text text' : String) : Twins view BootError.Fatal (say level text) (say level' text') :=
  Twins.of_unseen (unseen_say hview hlook level text) (unseen_say hview hlook level' text')

theorem unseen_sayAll (hview : Reveals look view) (hlook : Deaf look) (texts : List String) :
    Unseen view (texts.forM (say .info)) := by
  induction texts with
  | nil => exact Unseen.pure
  | cons text texts ih => exact Unseen.bind (unseen_say hview hlook .info text) ih

theorem unseen_lines (hview : Reveals look view) (hlook : Deaf look) (lines : List Line) :
    Unseen view (modify fun s => { s with world := s.world.sayAll lines } : Boot φ μ Unit) :=
  Unseen.modify fun s => hview.withWorld s s _ _ rfl (s.world.mute_sayAll hlook lines)

/-! ## The quiet states -/

omit [Firmware φ] in
theorem twins_earlyInit (hview : Reveals look view) :
    Twins view BootError.Fatal (earlyInit : Boot φ μ Unit) earlyInit :=
  Twins.bind (twins_platform hview) fun p => twins_hook hview p .earlyInit

theorem twins_generalInit (hview : Reveals look view) (hlook : Deaf look) :
    Twins view BootError.Fatal (generalInit : Boot φ μ Unit) generalInit := by
  refine Twins.bind (twins_platform hview) fun p => ?_
  refine Twins.bind (twins_hook hview p .init) fun _ => ?_
  refine Twins.bind (twins_hook hview p .memoryInit) fun _ => ?_
  refine Twins.bind (twins_hook hview p .setupDirectMapping) fun _ => ?_
  refine Twins.bind (twins_hook hview p .serialInit) fun _ => ?_
  refine Twins.unseen_bind (unseen_trace hview _) (unseen_trace hview _) ?_
  exact Twins.get_bind fun s t _ => Twins.of_unseen (unseen_sayAll hview hlook (overview s p))
    (unseen_sayAll hview hlook (overview t p))

/-- Whether there is a dump, and what comes of it, leaves no mark. -/
theorem twins_diagnosticDump [Mapping μ] (hview : Reveals look view) (hlook : Deaf look) :
    Twins view BootError.Fatal (diagnosticDump : Boot φ μ Unit) diagnosticDump := by
  unfold diagnosticDump
  refine Twins.get_bind fun s t h => ?_
  have hentries := hlook.entries _ _ (World.look_mute (hview.world s t h))
  dsimp only
  rw [hentries]
  refine Twins.bind (twins_onContext hview _) fun _ => ?_
  refine Twins.of_unseen ?_ ?_
  all_goals
    split
    · refine Unseen.bind (unseen_lines hview hlook _) ?_
      split
      · exact Unseen.bind (unseen_say hview hlook _ _) (unseen_trace hview _)
      · exact unseen_say hview hlook _ _
    · exact unseen_say hview hlook _ _

theorem twins_acquireMemoryMap (hview : Reveals look view) (hlook : Deaf look) :
    Twins view BootError.Fatal (acquireMemoryMap : Boot φ μ Unit) acquireMemoryMap := by
  refine Twins.bind (twins_platform hview) fun p => ?_
  refine Twins.bind (twins_inWorld hview BootError.fatal_ofPlatform
    (Host.matched_beforeExit hlook p)) fun _ => ?_
  refine Twins.bind (twins_inWorld hview BootError.fatal_ofPlatform
    (Host.matched_bootCpu hlook p)) fun cpu => ?_
  refine Twins.bind (twins_say hview hlook _ _ _ _) fun _ => ?_
  refine Twins.bind (twins_onContext hview _) fun _ => ?_
  refine Twins.bind (twins_inWorld hview BootError.fatal_firmware
    (Host.matched_probeAndAllocate hlook)) fun buffer => ?_
  exact Twins.modify fun s t h => hview.withBuffer s t (some buffer) h

theorem twins_terminateFirmwareServices (hview : Reveals look view) (hlook : Deaf look) :
    Twins view BootError.Fatal (terminateFirmwareServices : Boot φ μ Unit)
      terminateFirmwareServices := by
  refine Twins.bind (twins_takeMapBuffer hview) fun buffer => ?_
  refine Twins.bind (twins_say hview hlook _ _ _ _) fun _ => ?_
  refine Twins.bind (twins_inWorld hview BootError.fatal_firmware (Host.matched_quiesce hlook))
    fun _ => ?_
  refine Twins.bind (twins_inWorld hview BootError.fatal_firmware
    (Host.matched_fillAndExit hlook buffer)) fun map => ?_
  exact Twins.bind (twins_say hview hlook _ _ _ _) fun _ => twins_onContext hview _

/-- A quiet state does the same whatever the view leaves out. -/
theorem twins_action [Mapping μ] (hview : Reveals look view) (hlook : Deaf look) {state : BootState}
    (h : state.isQuiet = true) : Twins view BootError.Fatal (action state) (action state) := by
  cases state with
  | earlyArchInit => exact twins_earlyInit hview
  | generalArchInit => exact twins_generalInit hview hlook
  | diagnosticDump => exact twins_diagnosticDump hview hlook
  | acquireMemoryMap => exact twins_acquireMemoryMap hview hlook
  | terminateFirmwareServices => exact twins_terminateFirmwareServices hview hlook
  | transfer => exact Twins.throw nofun
  | _ => cases h

end Boot

end BootLoader
