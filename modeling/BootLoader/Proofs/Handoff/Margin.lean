import BootLoader.Firmware.Scripted
import BootLoader.Proofs.Handoff.Exit

/-! The room to spare in the buffer for the firmware's map. The map may grow by so many descriptors
from the request for its size to the request for its contents, and by no byte more; if it does,
nothing is ended. -/

namespace BootLoader

variable {φ μ : Type} [Firmware φ]

namespace Firmware

/-- A request is answered as a map of this size calls for: a buffer that is too short is told the
size, and any other is filled. -/
structure Charts (f : φ) (size descriptorSize : Nat) : Prop where
  short : ∀ buffer : Region, buffer.len < size →
    (memoryMap buffer f).1 = .bufferTooSmall size descriptorSize
  room : ∀ buffer : Region, size ≤ buffer.len →
    ∃ key layout, (memoryMap buffer f).1 = .filled key layout ∧ layout.mapSize = size

/-- Once the map was written into the buffer, the key that came with it ends the services. -/
def Releases (f : φ) (buffer : Region) : Prop :=
  ∀ key layout, (memoryMap buffer f).1 = .filled key layout →
    (exit key (memoryMap buffer f).2).1 = .ok ()

end Firmware

namespace ScriptedFirmware

variable {f : ScriptedFirmware}

/-- Without a script, the state of the map is what is told. -/
theorem charts_layout (h : f.mapAnswers = []) :
    Firmware.Charts f f.layout.mapSize f.layout.descriptorSize := by
  have hanswer : ∀ buffer, (memoryMap buffer f).1 = f.fairMap buffer (f.queries + 1) := by
    intro buffer
    simp [memoryMap, h, next]
  constructor
  · intro buffer hshort
    exact (hanswer buffer).trans (if_pos hshort)
  · intro buffer hroom
    exact ⟨_, f.layout, (hanswer buffer).trans (if_neg (Nat.not_lt.mpr hroom)), rfl⟩

theorem releases_of_fair (h : f.exitFailures = []) (buffer : Region) : Firmware.Releases f buffer := by
  intro key layout hfilled
  have hissued : (memoryMap buffer f).2.issued = some key := by
    change issuedBy (memoryMap buffer f).1 = some key
    rw [show (memoryMap buffer f).1 = .filled key layout from hfilled]
    rfl
  have hscript : (memoryMap buffer f).2.exitFailures = [] := h
  change (exit key (memoryMap buffer f).2).1 = .ok ()
  simp [exit, hscript, next, hissued]

end ScriptedFirmware

open Firmware World

namespace Host

variable {w v : World φ} {size descriptorSize : Nat}

theorem memoryMap_of_short (h : Charts w.firmware size descriptorSize) (region : Region)
    (hshort : region.len < size) :
    ∃ u, (memoryMap region : Host φ FirmwareError MapQuery) w =
        .ok (.bufferTooSmall size descriptorSize) u ∧
      u.calls = w.calls ++ [.memoryMap region (.bufferTooSmall size descriptorSize)] := by
  obtain ⟨answer, u, hmap, hcalls⟩ := memoryMap_apply (ε := FirmwareError) region w
  obtain rfl : answer = .bufferTooSmall size descriptorSize :=
    (of_memoryMap hmap).1.trans (h.short region hshort)
  exact ⟨u, hmap, hcalls⟩

variable {buffer : MapBuffer}

theorem fillAndExit_of_room (h : Charts v.firmware size descriptorSize)
    (hreleases : Releases v.firmware buffer.region) (hroom : size ≤ buffer.capacity) :
    ∃ map v', fillAndExit buffer v = .ok map v' ∧ map.layout.mapSize = size ∧
      map.capacity = buffer.capacity := by
  obtain ⟨answer, u, hmap, -⟩ := memoryMap_apply (ε := FirmwareError) buffer.region v
  obtain ⟨hanswer, hafter⟩ := of_memoryMap hmap
  obtain ⟨key, layout, hfilled, hlayout⟩ := h.room buffer.region hroom
  obtain ⟨left, v', hexit, -⟩ := exit_apply (ε := FirmwareError) key u
  rw [of_exit hexit, hafter, hreleases key layout hfilled] at hexit
  rw [hanswer, hfilled] at hmap
  exact ⟨_, v', fillAndExit_of_filled hmap hexit, hlayout, rfl⟩

theorem fillAndExit_of_short (h : Charts v.firmware size descriptorSize)
    (hshort : buffer.capacity < size) :
    ∃ v', fillAndExit buffer v = .error (.mapGrew size buffer.capacity) v' ∧
      v'.calls = v.calls ++ [.memoryMap buffer.region (.bufferTooSmall size descriptorSize)] := by
  obtain ⟨u, hmap, hcalls⟩ := memoryMap_of_short h buffer.region hshort
  exact ⟨u, fillAndExit_of_tooSmall hmap, hcalls⟩

/-- Whatever size the map has by now: if the exit is accepted, it is handed over exactly up to the
limit; beyond the limit it is asked for, and nothing else is. -/
def TakesUpTo (buffer : MapBuffer) (limit : Nat) (v : World φ) : Prop :=
  ∀ size descriptorSize, Charts v.firmware size descriptorSize →
    (Releases v.firmware buffer.region →
      ((∃ map v', fillAndExit buffer v = .ok map v') ↔ size ≤ limit) ∧
      ∀ map v', fillAndExit buffer v = .ok map v' →
        map.layout.mapSize = size ∧ size ≤ map.capacity) ∧
    (limit < size → ∃ v', fillAndExit buffer v = .error (.mapGrew size limit) v' ∧
      v'.calls = v.calls ++ [.memoryMap buffer.region (.bufferTooSmall size descriptorSize)])

/-- The limit is what the buffer holds. -/
theorem takesUpTo_capacity (buffer : MapBuffer) (v : World φ) :
    TakesUpTo buffer buffer.capacity v := by
  intro size descriptorSize h
  refine ⟨fun hreleases => ?_, fillAndExit_of_short h⟩
  by_cases hroom : size ≤ buffer.capacity
  · obtain ⟨map, v', hok, hsize, hcapacity⟩ := fillAndExit_of_room h hreleases hroom
    refine ⟨iff_of_true ⟨map, v', hok⟩ hroom, fun map' w hok' => ?_⟩
    cases hok.symm.trans hok'
    exact ⟨hsize, hcapacity ▸ hroom⟩
  · obtain ⟨v', herror, -⟩ := fillAndExit_of_short h (Nat.not_le.mp hroom)
    have hfails : ∀ map w, fillAndExit buffer v ≠ .ok map w := fun map w hok => by
      cases herror.symm.trans hok
    exact ⟨iff_of_false (fun ⟨map, w, hok⟩ => hfails map w hok) hroom,
      fun map w hok => absurd hok (hfails map w)⟩

theorem calls_of_mapGrew {v' : World φ} {required available : Nat}
    (h : fillAndExit buffer v = .error (.mapGrew required available) v') :
    ∃ answer, v'.calls = v.calls ++ [.memoryMap buffer.region answer] := by
  obtain ⟨answer, u, hmap, hcalls⟩ := memoryMap_apply (ε := FirmwareError) buffer.region v
  cases answer with
  | bufferTooSmall required descriptorSize =>
    rw [fillAndExit_of_tooSmall hmap] at h
    cases h
    exact ⟨_, hcalls⟩
  | failed status =>
    rw [fillAndExit_of_failed hmap] at h
    cases h
  | filled key layout =>
    obtain ⟨left, u', hexit, -⟩ := exit_apply (ε := FirmwareError) key u
    rw [fillAndExit_of_filled hmap hexit] at h
    cases left <;> cases h

end Host

namespace Boot

/-- Where the map has grown too far, all that was done is to ask for it. -/
theorem terminateFirmwareServices_of_mapGrew {s t : Session φ μ} {required available : Nat}
    (h : terminateFirmwareServices s = .error (.firmware (.mapGrew required available)) t) :
    ∃ region answer, t.world.calls = s.world.calls ++ [.quiesce, .memoryMap region answer] ∧
      t.mapBuffer = none ∧ t.state = s.state := by
  cases hbuffer : s.mapBuffer with
  | none =>
    rw [terminateFirmwareServices_of_none hbuffer] at h
    cases h
  | some buffer =>
    obtain ⟨v, hv, herror, hok⟩ := terminateFirmwareServices_of_fill hbuffer
    cases hfill : Host.fillAndExit buffer v with
    | ok map w =>
      obtain ⟨u, hdone, -⟩ := hok map w hfill
      cases hdone.symm.trans h
    | error e w =>
      cases (herror e w hfill).symm.trans h
      obtain ⟨answer, hw⟩ := Host.calls_of_mapGrew hfill
      refine ⟨buffer.region, answer, ?_, rfl, rfl⟩
      rw [hw, hv, List.append_assoc]
      rfl

end Boot

variable [Mapping μ]

/-- A boot that found its buffer too short never ends the firmware's services, however it is stepped
on. -/
theorem Session.no_exit_of_mapGrew {s t : Session φ μ} {required available : Nat}
    (hs : s.state = .terminateFirmwareServices)
    (h : Boot.step s = .error (.firmware (.mapGrew required available)) t) (n : Nat) :
    ∃ made, (s.afterSteps n).world.calls = s.world.calls ++ made ∧
      ∀ e ∈ made, e.isExit = false := by
  have haction := Boot.action_of_step_error h
  rw [hs] at haction
  change Boot.terminateFirmwareServices s.announced = _ at haction
  obtain ⟨region, answer, hcalls, hnone, hstate⟩ := Boot.terminateFirmwareServices_of_mapGrew haction
  have hclosed : t.IsClosed := .inl ⟨hstate.trans hs, hnone⟩
  have hstepped : s.stepped = t := by
    rw [stepped, h]
    rfl
  cases n with
  | zero => exact ⟨[], (List.append_nil _).symm, List.forall_mem_nil _⟩
  | succ n =>
    refine ⟨[.quiesce, .memoryMap region answer], ?_, by simp [Event.isExit]⟩
    rw [Nat.add_comm, afterSteps_add, afterSteps_one, hstepped, hclosed.afterSteps, hcalls,
      calls_announced]

open Host in
/-- A buffer for the map is reserved with room for exactly 20 descriptors more than the probe told,
if that many bytes can be counted at all. If as many are granted, the buffer takes just what has not
grown by more, and where it does not, the services are not ended then or later. A probe that tells
no size reserves nothing. -/
theorem margin_exact (w : World φ) :
    (∀ size descriptorSize, 0 < size → Charts w.firmware size descriptorSize →
      (Address.space ≤ size + 20 * descriptorSize → ∃ w',
        probeAndAllocate w = .error (.allocationFailed (Address.space - 1) .badBufferSize) w' ∧
        w'.calls = w.calls ++ [.memoryMap .empty (.bufferTooSmall size descriptorSize)]) ∧
      (size + 20 * descriptorSize < Address.space → ∃ answer w',
        w'.calls = w.calls ++ [.memoryMap .empty (.bufferTooSmall size descriptorSize),
          .allocate (size + 20 * descriptorSize) answer] ∧
        (∀ status, answer = .error status →
          probeAndAllocate w = .error (.allocationFailed (size + 20 * descriptorSize) status) w') ∧
        ∀ region, answer = .ok region → probeAndAllocate w = .ok ⟨region, descriptorSize⟩ w' ∧
          (region.len = size + 20 * descriptorSize → ∀ v : World φ,
            TakesUpTo ⟨region, descriptorSize⟩ (size + 20 * descriptorSize) v))) ∧
    (∀ (s t : Session φ μ) (required available : Nat), s.state = .terminateFirmwareServices →
      Boot.step s = .error (.firmware (.mapGrew required available)) t → ∀ n, ∃ made,
        (s.afterSteps n).world.calls = s.world.calls ++ made ∧ ∀ e ∈ made, e.isExit = false) ∧
    ∀ answer, (memoryMap .empty w.firmware).1 = answer →
      (∀ required descriptorSize, answer ≠ .bufferTooSmall required descriptorSize) →
      ∃ e w', probeAndAllocate w = .error e w' ∧
        w'.calls = w.calls ++ [.memoryMap .empty answer] := by
  refine ⟨fun size descriptorSize hsize h => ?_, fun s t _ _ => Session.no_exit_of_mapGrew, ?_⟩
  · obtain ⟨u, hprobe, hcalls⟩ := memoryMap_of_short h .empty hsize
    have htotal : descriptorSize * MapBuffer.margin + size = size + 20 * descriptorSize := by
      rw [MapBuffer.margin, Nat.mul_comm, Nat.add_comm]
    constructor
    · intro hlarge
      obtain ⟨w', herror, hw'⟩ := probeAndAllocate_of_overflow hprobe (htotal ▸ hlarge)
      exact ⟨w', herror, hw'.trans hcalls⟩
    · intro hfits
      obtain ⟨answer, w', hw', hdone⟩ := probeAndAllocate_of_fits hprobe (by omega)
      rw [htotal] at hw' hdone
      refine ⟨answer, w', ?_, ?_, ?_⟩
      · rw [hw', hcalls, List.append_assoc]
        rfl
      · rintro status rfl
        exact hdone
      · rintro region rfl
        exact ⟨hdone, fun hlen v => hlen ▸ takesUpTo_capacity ⟨region, descriptorSize⟩ v⟩
  · intro answer hanswer hother
    obtain ⟨answer', u, hprobe, hcalls⟩ := memoryMap_apply (ε := FirmwareError) .empty w
    obtain rfl : answer' = answer := (of_memoryMap hprobe).1.trans hanswer
    obtain ⟨e, herror⟩ := probeAndAllocate_of_refused hprobe hother
    exact ⟨e, u, herror, hcalls⟩

namespace Sample

def charted (size : Nat) : World ScriptedFirmware :=
  ⟨.fresh ⟨0, false⟩, { ScriptedFirmware.plain with layout := ⟨size, 48, 1⟩ }⟩

/-- What a map of 1920 bytes is given. -/
def mapBuffer : MapBuffer := ⟨⟨ScriptedFirmware.poolAddress, 2880⟩, 48⟩

theorem charts_charted (size : Nat) : Charts (charted size).firmware size 48 :=
  ScriptedFirmware.charts_layout rfl

end Sample

/-- Growth by 20 descriptors is all right, and by one byte more it is not. -/
theorem margin_exact_sample :
    (∃ w, Host.probeAndAllocate (Sample.charted 1920) = .ok Sample.mapBuffer w) ∧
      (∃ map w, Host.fillAndExit Sample.mapBuffer (Sample.charted 2880) = .ok map w ∧
        map.layout.mapSize = 2880) ∧
      ∃ w, Host.fillAndExit Sample.mapBuffer (Sample.charted 2881) = .error (.mapGrew 2881 2880) w := by
  have hrun : success? (Host.probeAndAllocate (Sample.charted 1920)) = some Sample.mapBuffer := by
    decide +kernel
  obtain ⟨-, hfits⟩ := (margin_exact (μ := Memory) (Sample.charted 1920)).1 1920 48 (by decide)
    (Sample.charts_charted 1920)
  obtain ⟨answer, w, -, herror, hok⟩ := hfits (by decide)
  cases answer with
  | error status =>
    rw [herror status rfl] at hrun
    cases hrun
  | ok region =>
    obtain ⟨hprobe, htakes⟩ := hok region rfl
    rw [hprobe] at hrun
    cases hrun
    obtain ⟨hiff, hmap⟩ := (htakes rfl _ 2880 48 (Sample.charts_charted 2880)).1
      (ScriptedFirmware.releases_of_fair rfl _)
    obtain ⟨map, w', hfill⟩ := hiff.mpr (Nat.le_refl 2880)
    obtain ⟨w'', hgrew, -⟩ := (htakes rfl _ 2881 48 (Sample.charts_charted 2881)).2 (by decide)
    exact ⟨⟨w, hprobe⟩, ⟨map, w', hfill, (hmap map w' hfill).1⟩, w'', hgrew⟩

end BootLoader
