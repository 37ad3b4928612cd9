import BootLoader.Proofs.Machine.Quiet

/-! The trail as the marks that the order of a boot is about. A query for the hart leaves no mark,
and a buffer that is granted is a mark of its own. -/

namespace BootLoader

inductive Mark where
  | hook (h : Hook)
  | memoryMap (buffer : Region)
  | allocate
  | granted (buffer : Region)
  | quiesce
  | exit
  | writes (phase : WritePhase)
deriving DecidableEq

def Event.marks : Event → List Mark
  | .hook h => [.hook h]
  | .bootHart _ => []
  | .memoryMap buffer _ => [.memoryMap buffer]
  | .allocate _ (.ok buffer) => [.allocate, .granted buffer]
  | .allocate _ (.error _) => [.allocate]
  | .quiesce => [.quiesce]
  | .exit .. => [.exit]
  | .writes phase => [.writes phase]

variable {φ : Type}

namespace World

def marks (w : World φ) : List Mark := w.machine.trail.reverse.flatMap Event.marks

theorem marks_record (w : World φ) (f : φ) (e : Event) :
    marks { machine := w.machine.record e, firmware := f } = w.marks ++ e.marks := by
  rw [marks, Machine.record, List.reverse_cons, List.flatMap_append, List.flatMap_singleton]
  rfl

theorem marks_of_trail {w w' : World φ} (h : w'.machine.trail = w.machine.trail) :
    w'.marks = w.marks := by
  rw [marks, h, marks]

end World

open World

variable [Firmware φ]

theorem quiet_marks : Quiet (Same (World.marks : World φ → List Mark)) where
  say w line := marks_of_trail (w.trail_say line)
  machine _ _ h := marks_of_trail h.trail

def World.Added (w w' : World φ) : Prop := w.marks <+: w'.marks

omit [Firmware φ] in
instance : IsPreorder (World φ) World.Added where
  refl w := List.prefix_refl w.marks
  trans _ _ _ h h' := List.IsPrefix.trans h h'

omit [Firmware φ] in
theorem World.added_of_trail {w w' : World φ} (h : w'.machine.trail = w.machine.trail) :
    World.Added w w' := ⟨[], (List.append_nil _).trans (marks_of_trail h).symm⟩

omit [Firmware φ] in
theorem World.added_record (w : World φ) (f : φ) (e : Event) :
    World.Added w { machine := w.machine.record e, firmware := f } :=
  ⟨e.marks, (w.marks_record f e).symm⟩

theorem patient_added : Patient (World.Added : World φ → World φ → Prop) where
  say w line := added_of_trail (w.trail_say line)
  machine _ _ h := added_of_trail h.trail
  inner w e _ := w.added_record _ e

theorem lenient_added : Lenient (World.Added : World φ → World φ → Prop) where
  toPatient := patient_added
  bootHart := Host.keeps_bootHart patient_added.toQuiet (fun w => w.added_record _ _)
    fun w => List.prefix_refl w.marks
  memoryMap _ w := w.added_record _ _
  allocate _ w := w.added_record _ _
  quiesce w := w.added_record _ _
  exit _ w := w.added_record _ _

namespace Host

variable {ε : Type}

theorem keeps_marks_bootHart : Keeps (Same marks) (bootHart : Host φ ε (Option UInt64)) :=
  keeps_bootHart quiet_marks (fun w => (marks_record w _ _).trans (List.append_nil _)) fun _ => rfl

omit [Firmware φ] in
theorem follows_hook (k : Hook) (w : World φ) :
    Follows marks [.hook k] w ((record (.hook k) : Host φ ε Unit) w) :=
  marks_record w w.firmware (.hook k)

theorem follows_memoryMap (buffer : Region) (w : World φ) :
    Follows marks [.memoryMap buffer] w ((memoryMap buffer : Host φ ε MapQuery) w) :=
  marks_record w _ _

theorem follows_quiesce (w : World φ) :
    Follows marks [.quiesce] w ((quiesce : Host φ ε Unit) w) := marks_record w _ _

theorem follows_exit (key : MapKey) (w : World φ) :
    Follows marks [.exit] w ((exit key : Host φ ε (Except Status Unit)) w) := marks_record w _ _

theorem follows_plainHook (p : Platform) (k : Hook) (w : World φ) :
    Follows marks [.hook k] w (plainHook p k w) := by
  refine (follows_hook k w).bind_same fun _ => ?_
  split
  · split
    · exact keeps_native p.arch
    · exact Keeps.pure ()
  · exact keeps_takeReply quiet_marks p k

theorem follows_beforeExit (p : Platform) (w : World φ) :
    Follows marks [.hook .beforeExit] w (beforeExit p w) := by
  refine (follows_hook .beforeExit w).bind_same fun _ => ?_
  split
  · exact Keeps.bind (keeps_queryHart quiet_marks keeps_marks_bootHart p) fun _ => Keeps.pure _
  · exact Keeps.pure ()
  · exact keeps_takeReply quiet_marks p .beforeExit

theorem follows_bootCpu (p : Platform) (w : World φ) :
    Follows marks [.hook .bootCpu] w (bootCpu p w) := by
  refine (follows_hook .bootCpu w).bind_same fun _ => ?_
  split
  · exact keeps_queryHart quiet_marks keeps_marks_bootHart p
  · exact Keeps.pure _
  · exact Keeps.bind (keeps_takeReply quiet_marks p .bootCpu) fun _ =>
      Keeps.bind keeps_marks_bootHart fun _ => Keeps.pure _

theorem follows_fillAndExit (buffer : MapBuffer) (w : World φ) :
    Follows marks [.memoryMap buffer.region, .exit] w (fillAndExit buffer w) := by
  refine (follows_memoryMap buffer.region w).cons fun answer t _ => ?_
  cases answer with
  | bufferTooSmall required descriptorSize => exact Follows.error _ _
  | failed status => exact Follows.error _ _
  | filled key layout =>
    refine (follows_exit key t).bind_same fun left => ?_
    cases left with
    | ok _ => exact Keeps.pure _
    | error status => exact Keeps.throw _

/-- The buffer that is granted is the one that the reservation answers with. -/
theorem follows_probeAndAllocate (w : World φ) {buffer : Region}
    (hbuffer : ∀ b w', probeAndAllocate w = .ok b w' → b.region = buffer) :
    Follows marks [.memoryMap .empty, .allocate, .granted buffer] w (probeAndAllocate w) := by
  unfold probeAndAllocate at hbuffer ⊢
  refine (follows_memoryMap .empty w).cons fun answer t ht => ?_
  rw [bind_of_ok ht] at hbuffer
  cases answer with
  | filled key layout => exact Follows.error _ _
  | failed status => exact Follows.error _ _
  | bufferTooSmall required descriptorSize =>
    dsimp only at hbuffer ⊢
    refine Follows.same_bind (keeps_say quiet_marks _) fun _ u hu => ?_
    rw [bind_of_ok hu] at hbuffer
    split
    · exact Follows.error _ _
    · rename_i hsize
      rw [if_neg hsize] at hbuffer
      obtain ⟨granted, v, hv, hmarks⟩ : ∃ granted v,
          (allocate (descriptorSize * MapBuffer.margin + required) :
            Host φ FirmwareError (Except Status Region)) u = .ok granted v ∧
          v.marks = u.marks ++ (Event.allocate _ granted).marks := ⟨_, _, rfl, marks_record u _ _⟩
      rw [bind_of_ok hv] at hbuffer ⊢
      cases granted with
      | error status => exact ⟨[.allocate], ⟨[.granted buffer], rfl⟩, hmarks⟩
      | ok region =>
        have hregion : region = buffer := hbuffer _ _ rfl
        subst hregion
        exact (marks_of_trail (v.trail_say _)).trans hmarks

end Host

end BootLoader
