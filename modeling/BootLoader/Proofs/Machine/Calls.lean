import BootLoader.Proofs.Machine.Quiet

/-! The calls to the firmware. The reservation of the buffer makes calls that reserve nothing until
the last one succeeds; what ends the firmware's services asks for the map once, and if that answers
with a key, the next call and the last one is the exit with this key. -/

namespace BootLoader

variable {φ : Type}

/-- A call that leaves no buffer reserved and the firmware's services up. -/
def Event.isPrelude : Event → Bool
  | .bootHart _ | .memoryMap .. | .allocate _ (.error _) => true
  | _ => false

namespace World

def calls (w : World φ) : List Event := (w.machine.trail.filter (!·.isInner)).reverse

theorem calls_record (w : World φ) (f : φ) {e : Event} (h : e.isInner = false) :
    calls { machine := w.machine.record e, firmware := f } = w.calls ++ [e] := by
  unfold calls
  rw [Machine.record, List.filter_cons_of_pos (by rw [h]; rfl), List.reverse_cons]

theorem calls_of_trail {w w' : World φ} (h : w'.machine.trail = w.machine.trail) :
    w'.calls = w.calls := by
  rw [calls, h, calls]

/-- Calls were made, all of them of the kind `P`. -/
def Grows (P : Event → Bool) (w w' : World φ) : Prop :=
  ∃ made, w'.calls = w.calls ++ made ∧ ∀ e ∈ made, P e = true

variable {P : Event → Bool} {w w' : World φ}

instance : IsPreorder (World φ) (Grows P) where
  refl w := ⟨[], (List.append_nil _).symm, nofun⟩
  trans u v w := by
    rintro ⟨made, hv, hmade⟩ ⟨made', hw, hmade'⟩
    refine ⟨made ++ made', by rw [hw, hv, List.append_assoc], fun e he => ?_⟩
    rcases List.mem_append.mp he with he | he
    · exact hmade e he
    · exact hmade' e he

theorem Grows.of_same (h : w'.calls = w.calls) : Grows P w w' :=
  ⟨[], h.trans (List.append_nil _).symm, nofun⟩

theorem Grows.of_call {e : Event} (h : w'.calls = w.calls ++ [e]) (he : P e = true) :
    Grows P w w' :=
  ⟨[e], h, fun _ h' => List.mem_singleton.mp h' ▸ he⟩

end World

open World

variable [Firmware φ]

theorem patient_calls : Patient (Same (World.calls : World φ → List Event)) where
  say w line := calls_of_trail (w.trail_say line)
  machine _ _ h := calls_of_trail h.trail
  inner w e h := by
    unfold Same calls
    rw [Machine.record, List.filter_cons_of_neg (by rw [h]; exact Bool.false_ne_true)]

theorem patient_grows {P : Event → Bool} : Patient (Grows P : World φ → World φ → Prop) where
  say w line := .of_same (patient_calls.say w line)
  machine w m h := .of_same (patient_calls.machine w m h)
  inner w e h := .of_same (patient_calls.inner w e h)

namespace Host

variable {ε : Type}

theorem bootHart_grows {P : Event → Bool} (h : ∀ answer, P (.bootHart answer) = true) :
    Keeps (Grows P) (bootHart : Host φ ε (Option UInt64)) :=
  keeps_bootHart patient_grows.toQuiet (fun w => .of_call (calls_record w _ rfl) (h _))
    fun _ => .of_same rfl

theorem memoryMap_apply (buffer : Region) (w : World φ) :
    ∃ answer w', (memoryMap buffer : Host φ ε MapQuery) w = .ok answer w' ∧
      w'.calls = w.calls ++ [.memoryMap buffer answer] :=
  ⟨_, _, rfl, calls_record w _ rfl⟩

theorem allocate_apply (size : Nat) (w : World φ) :
    ∃ answer w', (allocate size : Host φ ε (Except Status Region)) w = .ok answer w' ∧
      w'.calls = w.calls ++ [.allocate size answer] :=
  ⟨_, _, rfl, calls_record w _ rfl⟩

theorem quiesce_apply (w : World φ) :
    ∃ w', (quiesce : Host φ ε Unit) w = .ok () w' ∧ w'.calls = w.calls ++ [.quiesce] :=
  ⟨_, rfl, calls_record w _ rfl⟩

theorem exit_apply (key : MapKey) (w : World φ) :
    ∃ answer w', (exit key : Host φ ε (Except Status Unit)) w = .ok answer w' ∧
      w'.calls = w.calls ++ [.exit key answer] :=
  ⟨_, _, rfl, calls_record w _ rfl⟩

theorem of_memoryMap {buffer : Region} {w u : World φ} {answer : MapQuery}
    (h : (memoryMap buffer : Host φ ε MapQuery) w = .ok answer u) :
    answer = (Firmware.memoryMap buffer w.firmware).1 ∧
      u.firmware = (Firmware.memoryMap buffer w.firmware).2 := by
  cases h
  exact ⟨rfl, rfl⟩

theorem of_exit {key : MapKey} {w u : World φ} {answer : Except Status Unit}
    (h : (exit key : Host φ ε (Except Status Unit)) w = .ok answer u) :
    answer = (Firmware.exit key w.firmware).1 := by
  cases h
  rfl

/-! ## The reservation, answer by answer -/

section Reservation

variable {w u : World φ} {required descriptorSize : Nat}

/-- Without a size to go by, nothing is reserved. -/
theorem probeAndAllocate_of_refused {answer : MapQuery}
    (hprobe : (memoryMap .empty : Host φ FirmwareError MapQuery) w = .ok answer u)
    (h : ∀ required descriptorSize, answer ≠ .bufferTooSmall required descriptorSize) :
    ∃ e, probeAndAllocate w = .error e u := by
  unfold probeAndAllocate
  rw [bind_of_ok hprobe]
  cases answer with
  | filled key layout => exact ⟨_, rfl⟩
  | failed status => exact ⟨_, rfl⟩
  | bufferTooSmall required descriptorSize => exact absurd rfl (h required descriptorSize)

section Told

variable (hprobe : (memoryMap .empty : Host φ FirmwareError MapQuery) w =
  .ok (.bufferTooSmall required descriptorSize) u)
include hprobe

/-- A size that no machine has memory for is not asked for. -/
theorem probeAndAllocate_of_overflow
    (h : Address.space ≤ descriptorSize * MapBuffer.margin + required) :
    ∃ v, probeAndAllocate w = .error (.allocationFailed (Address.space - 1) .badBufferSize) v ∧
      v.calls = u.calls := by
  refine ⟨_, ?_, calls_of_trail (u.trail_say (mapLine .info
    s!"GetMemoryMap (probe): {required} bytes in {descriptorSize}-byte descriptors"))⟩
  unfold probeAndAllocate
  rw [bind_of_ok hprobe]
  change (if _ then _ else _ : Host φ FirmwareError MapBuffer) _ = _
  rw [if_pos h]
  rfl

theorem probeAndAllocate_of_fits
    (h : ¬ Address.space ≤ descriptorSize * MapBuffer.margin + required) :
    ∃ answer v, v.calls = u.calls ++
        [.allocate (descriptorSize * MapBuffer.margin + required) answer] ∧
      probeAndAllocate w = match answer with
        | .ok region => .ok ⟨region, descriptorSize⟩ v
        | .error status =>
          .error (.allocationFailed (descriptorSize * MapBuffer.margin + required) status) v := by
  let size := descriptorSize * MapBuffer.margin + required
  let line := mapLine .info
    s!"GetMemoryMap (probe): {required} bytes in {descriptorSize}-byte descriptors"
  let reserved (region : Region) := mapLine .debug
    s!"Reserved {size} bytes for the memory map at {region.start.hex}"
  obtain ⟨answer, v, hallocate, hcalls⟩ := allocate_apply (ε := FirmwareError) size (u.say line)
  rw [calls_of_trail (u.trail_say line)] at hcalls
  unfold probeAndAllocate
  rw [bind_of_ok hprobe]
  -- Past the guard, the request is the next call, and its answer decides the rest.
  cases answer with
  | error status =>
    refine ⟨.error status, v, hcalls, ?_⟩
    change (if _ then _ else _ : Host φ FirmwareError MapBuffer) (u.say line) = _
    rw [if_neg h]
    exact bind_of_ok hallocate
  | ok region =>
    refine ⟨.ok region, v.say (reserved region), (calls_of_trail (v.trail_say _)).trans hcalls, ?_⟩
    change (if _ then _ else _ : Host φ FirmwareError MapBuffer) (u.say line) = _
    rw [if_neg h]
    exact bind_of_ok hallocate

end Told

end Reservation

theorem probeAndAllocate_cases (w : World φ) :
    (∃ e w', probeAndAllocate w = .error e w' ∧ Grows Event.isPrelude w w') ∨
    ∃ buffer size w' w'', probeAndAllocate w = .ok buffer w'' ∧ Grows Event.isPrelude w w' ∧
      w''.calls = w'.calls ++ [.allocate size (.ok buffer.region)] := by
  obtain ⟨answer, u, hmap, hcalls⟩ := memoryMap_apply (ε := FirmwareError) .empty w
  have hprobe : Grows Event.isPrelude w u := .of_call hcalls rfl
  by_cases htold : ∃ required descriptorSize, answer = .bufferTooSmall required descriptorSize
  · obtain ⟨required, descriptorSize, rfl⟩ := htold
    by_cases hlarge : Address.space ≤ descriptorSize * MapBuffer.margin + required
    · obtain ⟨v, herror, hv⟩ := probeAndAllocate_of_overflow hmap hlarge
      exact .inl ⟨_, v, herror, trans_of (Grows Event.isPrelude) hprobe (.of_same hv)⟩
    · obtain ⟨granted, v, hv, hdone⟩ := probeAndAllocate_of_fits hmap hlarge
      cases granted with
      | error status =>
        exact .inl ⟨_, v, hdone, trans_of (Grows Event.isPrelude) hprobe (.of_call hv rfl)⟩
      | ok region => exact .inr ⟨_, _, u, v, hdone, hprobe, hv⟩
  · obtain ⟨e, herror⟩ := probeAndAllocate_of_refused hmap fun required descriptorSize h =>
      htold ⟨required, descriptorSize, h⟩
    exact .inl ⟨e, u, herror, hprobe⟩

/-! ## The final map, answer by answer -/

section Final

variable {buffer : MapBuffer} {w u v : World φ}

theorem fillAndExit_of_tooSmall {required descriptorSize : Nat}
    (hmap : (memoryMap buffer.region : Host φ FirmwareError MapQuery) w =
      .ok (.bufferTooSmall required descriptorSize) u) :
    fillAndExit buffer w = .error (.mapGrew required buffer.capacity) u := bind_of_ok hmap

theorem fillAndExit_of_failed {status : Status}
    (hmap : (memoryMap buffer.region : Host φ FirmwareError MapQuery) w = .ok (.failed status) u) :
    fillAndExit buffer w = .error (.mapQueryFailed status) u := bind_of_ok hmap

theorem fillAndExit_of_filled {key : MapKey} {layout : MapLayout} {left : Except Status Unit}
    (hmap : (memoryMap buffer.region : Host φ FirmwareError MapQuery) w = .ok (.filled key layout) u)
    (hexit : (exit key : Host φ FirmwareError (Except Status Unit)) u = .ok left v) :
    fillAndExit buffer w = match left with
      | .ok _ => .ok ⟨buffer.region.start, buffer.capacity, layout, key⟩ v
      | .error status => .error (.exitFailed status) v := by
  refine (bind_of_ok hmap).trans ((bind_of_ok hexit).trans ?_)
  cases left <;> rfl

end Final

/-- What may follow the request for the final map: nothing, or the exit with its key. -/
def isFollowUp (answer : MapQuery) (rest : List Event) : Prop :=
  rest = [] ∨ ∃ key layout left, answer = .filled key layout ∧ rest = [.exit key left]

theorem fillAndExit_calls (buffer : MapBuffer) (w : World φ) :
    ∃ answer rest, (final (fillAndExit buffer w)).calls =
      w.calls ++ .memoryMap buffer.region answer :: rest ∧ isFollowUp answer rest := by
  obtain ⟨answer, u, hmap, hcalls⟩ := memoryMap_apply (ε := FirmwareError) buffer.region w
  cases answer with
  | bufferTooSmall required descriptorSize =>
    rw [fillAndExit_of_tooSmall hmap]
    exact ⟨_, [], hcalls, .inl rfl⟩
  | failed status =>
    rw [fillAndExit_of_failed hmap]
    exact ⟨_, [], hcalls, .inl rfl⟩
  | filled key layout =>
    obtain ⟨left, v, hexit, hcalls'⟩ := exit_apply (ε := FirmwareError) key u
    rw [hcalls, List.append_assoc] at hcalls'
    rw [fillAndExit_of_filled hmap hexit]
    refine ⟨.filled key layout, [.exit key left], ?_, .inr ⟨key, layout, left, rfl, rfl⟩⟩
    cases left <;> exact hcalls'

/-- A map that is handed over came with its key, and the firmware accepted the exit with this key.
-/
theorem calls_of_fillAndExit_ok {buffer : MapBuffer} {w w' : World φ} {map : MemoryMapInfo}
    (h : fillAndExit buffer w = .ok map w') :
    w'.calls = w.calls ++
      [.memoryMap buffer.region (.filled map.key map.layout), .exit map.key (.ok ())] := by
  obtain ⟨answer, u, hmap, hcalls⟩ := memoryMap_apply (ε := FirmwareError) buffer.region w
  cases answer with
  | bufferTooSmall required descriptorSize =>
    rw [fillAndExit_of_tooSmall hmap] at h
    cases h
  | failed status =>
    rw [fillAndExit_of_failed hmap] at h
    cases h
  | filled key layout =>
    obtain ⟨left, v, hexit, hcalls'⟩ := exit_apply (ε := FirmwareError) key u
    rw [hcalls, List.append_assoc] at hcalls'
    rw [fillAndExit_of_filled hmap hexit] at h
    cases left with
    | error status => cases h
    | ok _ =>
      cases h
      exact hcalls'

end Host

end BootLoader
