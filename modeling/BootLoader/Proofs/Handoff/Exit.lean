import BootLoader.Proofs.Handoff.Setting
import BootLoader.Proofs.Handoff.Step
import BootLoader.Proofs.Machine.Calls
import Mathlib.Data.List.Basic

/-! The end of the firmware's services. Two states call the firmware: one reserves the buffer for
the map, which is the last thing it does, and the next one takes the buffer, which can be done once.
So however a caller steps on, the services are ended once at most, with the key of the map that was
asked for just before, and after the attempt the firmware is left alone. -/

namespace BootLoader

variable {φ μ α : Type}

open Session World

namespace Boot

variable {R : World φ → World φ → Prop}

/-! ## States that do not call the firmware -/

variable [Firmware φ] [IsPreorder (World φ) R]

variable [Mapping μ]

/-- Only two states call the firmware. -/
theorem keeps_action_state (h : Patient R) {state : BootState}
    (hacquire : state ≠ .acquireMemoryMap) (hterminate : state ≠ .terminateFirmwareServices) :
    Keeps (Along R Session.state) (action state : Boot φ μ Unit) := by
  cases state with
  | detect => exact keeps_detect_state h.toQuiet
  | earlyArchInit => exact keeps_state_of_ground (keeps_earlyInit h)
  | generalArchInit => exact keeps_state_of_ground (keeps_generalInit h)
  | diagnosticDump => exact keeps_state_of_ground (keeps_diagnosticDump h.toQuiet)
  | acquireMemoryMap => exact absurd rfl hacquire
  | terminateFirmwareServices => exact absurd rfl hterminate
  | copyPayloads => exact keeps_state_of_setting (keeps_copyPayloads_setting h)
  | archPreJumpFixup =>
    exact keeps_state_of_setting (keeps_setting_of_known (keeps_preJumpFixup_known h))
  | transfer => exact Keeps.throw _

/-! ## States that do -/

omit [Mapping μ] [IsPreorder (World φ) R]

/-- What becomes of the reservation: calls that reserve nothing, and after them the one that does.
-/
def Reserves (s : Session φ μ) : EStateM.Result BootError (Session φ μ) Unit → Prop
  | .error _ t => t.state = s.state ∧ Grows Event.isPrelude s.world t.world
  | .ok _ t => ∃ buffer size w, t.mapBuffer = some buffer ∧ Grows Event.isPrelude s.world w ∧
      t.world.calls = w.calls ++ [.allocate size (.ok buffer.region)]

theorem acquireMemoryMap_reserves (s : Session φ μ) : Reserves s (acquireMemoryMap s) := by
  have hpatient : Patient (Grows Event.isPrelude : World φ → World φ → Prop) := patient_grows
  have herror : ∀ e t, Along (Grows Event.isPrelude) Session.state s t →
      Reserves s (.error e t) := fun _ _ h => ⟨h.2, h.1⟩
  have hstart : Along (Grows Event.isPrelude) Session.state s s := refl_of _ s
  have hhart : Keeps (Grows Event.isPrelude) (Host.bootHart : Host φ PlatformError (Option UInt64)) :=
    Host.bootHart_grows fun _ => rfl
  unfold acquireMemoryMap
  refine (keeps_state_of_ground keeps_platform).bind_elim hstart herror fun p _ h => ?_
  refine (keeps_state_of_ground (keeps_inWorld
    (Host.keeps_beforeExit hpatient hhart p))).bind_elim h herror fun _ _ h => ?_
  refine (keeps_state_of_ground (keeps_inWorld
    (Host.keeps_bootCpu hpatient hhart p))).bind_elim h herror fun cpu _ h => ?_
  refine (keeps_state_of_ground (keeps_say hpatient.toQuiet _ _)).bind_elim h herror fun _ _ h => ?_
  refine (keeps_state_of_ground (keeps_onContext (f := fun c => { c with bootCpu := some cpu })
    fun _ => ⟨rfl, rfl, rfl, rfl⟩)).bind_elim h herror fun _ t h => ?_
  rcases Host.probeAndAllocate_cases t.world with
    ⟨e, w, hprobe, hw⟩ | ⟨buffer, size, v, w, hprobe, hv, hw⟩
  · rw [bind_of_error (inWorld_of_error hprobe)]
    exact ⟨h.2, trans_of (Grows Event.isPrelude) h.1 hw⟩
  · rw [bind_of_ok (inWorld_of_ok hprobe)]
    exact ⟨buffer, size, v, rfl, trans_of (Grows Event.isPrelude) h.1 hv, hw⟩

omit [Firmware φ] in
theorem takeMapBuffer_of_none {s : Session φ μ} (h : s.mapBuffer = none) :
    takeMapBuffer s = .error (.outOfOrder s.state) s := by
  obtain ⟨world, memory, config, state, context, buffer⟩ := s
  cases h
  rfl

/-- Without a buffer the firmware is left alone. -/
theorem terminateFirmwareServices_of_none {s : Session φ μ} (h : s.mapBuffer = none) :
    terminateFirmwareServices s = .error (.outOfOrder s.state) s :=
  bind_of_error (takeMapBuffer_of_none h)

/-- The buffer is taken, and the last two things the firmware is asked go on with it. -/
theorem terminateFirmwareServices_of_fill {s : Session φ μ} {buffer : MapBuffer}
    (h : s.mapBuffer = some buffer) :
    ∃ v : World φ, v.calls = s.world.calls ++ [.quiesce] ∧
      (∀ e w, Host.fillAndExit buffer v = .error e w →
        terminateFirmwareServices s = .error (.firmware e) { s with mapBuffer := none, world := w }) ∧
      ∀ map w, Host.fillAndExit buffer v = .ok map w → ∃ t, terminateFirmwareServices s = .ok () t ∧
        t.world.calls = w.calls ∧ t.mapBuffer = none ∧ t.state = s.state := by
  have htake : takeMapBuffer s = .ok buffer { s with mapBuffer := none } := by
    rw [takeMapBuffer_apply, h]
  let u := s.world.say ⟨.info, "boot_handoff::sequencer", "Exiting boot services ..."⟩
  have hsay : say .info "Exiting boot services ..." { s with mapBuffer := none } =
      .ok () { s with mapBuffer := none, world := u } := rfl
  obtain ⟨v, hquiesce, hv⟩ := Host.quiesce_apply (ε := FirmwareError) u
  rw [calls_of_trail (s.world.trail_say _)] at hv
  unfold terminateFirmwareServices
  rw [bind_of_ok htake, bind_of_ok hsay, bind_of_ok (inWorld_of_ok hquiesce)]
  refine ⟨v, hv, fun e w hfill => bind_of_error (inWorld_of_error hfill), fun map w hfill => ?_⟩
  rw [bind_of_ok (inWorld_of_ok hfill)]
  exact ⟨_, rfl, calls_of_trail (w.trail_say _), rfl, rfl⟩

/-- What becomes of a buffer: it is gone, and the firmware was asked for the map in it. -/
theorem terminateFirmwareServices_of_some {s : Session φ μ} {buffer : MapBuffer}
    (h : s.mapBuffer = some buffer) :
    ∃ answer rest, Host.isFollowUp answer rest ∧
      (final (terminateFirmwareServices s)).world.calls =
        s.world.calls ++ .quiesce :: .memoryMap buffer.region answer :: rest ∧
      (final (terminateFirmwareServices s)).mapBuffer = none ∧
      (final (terminateFirmwareServices s)).state = s.state := by
  obtain ⟨v, hv, herror, hok⟩ := terminateFirmwareServices_of_fill h
  obtain ⟨answer, rest, hcalls, hrest⟩ := Host.fillAndExit_calls buffer v
  rw [hv, List.append_assoc, List.singleton_append] at hcalls
  refine ⟨answer, rest, hrest, ?_⟩
  cases hfill : Host.fillAndExit buffer v with
  | ok map w =>
    rw [hfill] at hcalls
    obtain ⟨t, hdone, ht, hnone, hstate⟩ := hok map w hfill
    rw [hdone]
    exact ⟨ht.trans hcalls, hnone, hstate⟩
  | error e w =>
    rw [hfill] at hcalls
    rw [herror e w hfill]
    exact ⟨hcalls, rfl, rfl⟩

end Boot

/-! ## Step by step -/

def Event.isExit : Event → Bool
  | .exit .. => true
  | _ => false

theorem not_isExit_of_isPrelude {e : Event} (h : e.isPrelude = true) : e.isExit = false := by
  cases e <;> first | rfl | cases h

/-- A buffer was reserved, the map was asked for in it, and perhaps the services were ended. -/
def Closed (made : List Event) : Prop :=
  ∃ pre size region answer rest, (∀ e ∈ pre, Event.isPrelude e = true) ∧
    Host.isFollowUp answer rest ∧
    made = pre ++ .allocate size (.ok region) :: .quiesce :: .memoryMap region answer :: rest

namespace Session

/-- No state that is still to come has anything to ask of the firmware. -/
def IsClosed (s : Session φ μ) : Prop :=
  s.state = .terminateFirmwareServices ∧ s.mapBuffer = none ∨ s.state.firmwareTerminated = true

/-- How far the boot has come with the firmware, and the calls made until then. -/
inductive Stage (s : Session φ μ) (made : List Event) : Prop
  | unreserved (hstate : 4 ≤ s.state.remaining) (hmade : ∀ e ∈ made, e.isPrelude = true)
  | reserved {pre : List Event} {size : Nat} {buffer : MapBuffer}
      (hstate : s.state = .terminateFirmwareServices) (hbuffer : s.mapBuffer = some buffer)
      (hpre : ∀ e ∈ pre, e.isPrelude = true)
      (hmade : made = pre ++ [.allocate size (.ok buffer.region)])
  | closed (hstate : s.IsClosed) (hmade : Closed made)

variable [Firmware φ]

theorem calls_announced (s : Session φ μ) : s.announced.world.calls = s.world.calls :=
  calls_of_trail (s.world.trail_say _)

variable [Mapping μ] {s : Session φ μ} {made : List Event}

/-- Two states apart, a step makes no call. -/
theorem stepped_of_callFree (hacquire : s.state ≠ .acquireMemoryMap)
    (hterminate : s.state ≠ .terminateFirmwareServices) :
    s.stepped.world.calls = s.world.calls ∧
      (s.stepped.state = s.state ∨ s.stepped.state = s.state.next) := by
  have hkeeps := Boot.keeps_action_state (μ := μ) (patient_calls (φ := φ)) hacquire hterminate
  rcases s.stepped_cases with ⟨t, hok, hstepped⟩ | ⟨e, herror⟩
  · rw [hstepped]
    exact ⟨(hkeeps.of_ok hok).1.trans (calls_announced s), .inr rfl⟩
  · have h := hkeeps.of_error herror
    exact ⟨h.1.trans (calls_announced s), .inl h.2⟩

theorem IsClosed.stepped (h : s.IsClosed) :
    s.stepped.world.calls = s.world.calls ∧ s.stepped.IsClosed := by
  rcases h with ⟨hstate, hbuffer⟩ | hstate
  · have haction : Boot.action s.state s.announced = Boot.terminateFirmwareServices s.announced := by
      rw [hstate]
      rfl
    have hnone := Boot.terminateFirmwareServices_of_none (s := s.announced) hbuffer
    rw [stepped_of_error (haction.trans hnone)]
    exact ⟨calls_announced s, .inl ⟨hstate, hbuffer⟩⟩
  · have hacquire : s.state ≠ .acquireMemoryMap := fun h => by rw [h] at hstate; cases hstate
    have hterminate : s.state ≠ .terminateFirmwareServices := fun h => by
      rw [h] at hstate; cases hstate
    obtain ⟨hcalls, hnext⟩ := stepped_of_callFree hacquire hterminate
    refine ⟨hcalls, .inr ?_⟩
    rcases hnext with hnext | hnext <;> rw [hnext]
    · exact hstate
    · cases hs : s.state <;> rw [hs] at hstate <;> first | rfl | cases hstate

theorem IsClosed.afterSteps (h : s.IsClosed) (n : Nat) :
    (s.afterSteps n).world.calls = s.world.calls := by
  have hall := afterSteps_induction (s := s) (I := fun t => t.world.calls = s.world.calls ∧ t.IsClosed)
    (fun t ht => ⟨ht.2.stepped.1.trans ht.1, ht.2.stepped.2⟩) ⟨rfl, h⟩ n
  exact hall.1

theorem stepped_of_acquire (hs : s.state = .acquireMemoryMap)
    (hmade : ∀ e ∈ made, e.isPrelude = true) :
    ∃ new, s.stepped.world.calls = s.world.calls ++ new ∧ (∀ e ∈ new, e.isExit = false) ∧
      Stage s.stepped (made ++ new) := by
  have haction : Boot.action s.state s.announced = Boot.acquireMemoryMap s.announced := by
    rw [hs]
    rfl
  have hreserves := Boot.acquireMemoryMap_reserves s.announced
  have hprelude : ∀ {new}, (∀ e ∈ new, Event.isPrelude e = true) →
      ∀ e ∈ made ++ new, e.isPrelude = true := fun hnew e he =>
    (List.mem_append.mp he).elim (hmade e) (hnew e)
  cases hdone : Boot.acquireMemoryMap s.announced with
  | ok _ t =>
    rw [hdone] at hreserves
    obtain ⟨buffer, size, w, hbuffer, ⟨new, hw, hnew⟩, ht⟩ := hreserves
    rw [calls_announced] at hw
    refine ⟨new ++ [.allocate size (.ok buffer.region)], ?_, fun e he => ?_, ?_⟩
    · rw [stepped_of_ok (haction.trans hdone), ← List.append_assoc, ← hw]
      exact ht
    · rw [List.mem_append, List.mem_singleton] at he
      rcases he with he | rfl
      · exact not_isExit_of_isPrelude (hnew e he)
      · rfl
    · rw [stepped_of_ok (haction.trans hdone), hs]
      exact .reserved rfl hbuffer (hprelude hnew) (List.append_assoc ..).symm
  | error e t =>
    rw [hdone] at hreserves
    obtain ⟨hstate, new, ht, hnew⟩ := hreserves
    rw [calls_announced] at ht
    rw [stepped_of_error (haction.trans hdone)]
    refine ⟨new, ht, fun e he => not_isExit_of_isPrelude (hnew e he), .unreserved ?_ (hprelude hnew)⟩
    rw [hstate]
    exact hs ▸ Nat.le_refl 4

/-- The buffer is taken before the firmware is asked, so that even a failure leaves nothing to ask.
-/
theorem stepped_of_reserved {buffer : MapBuffer} (hs : s.state = .terminateFirmwareServices)
    (hbuffer : s.mapBuffer = some buffer) :
    ∃ answer rest, Host.isFollowUp answer rest ∧ s.stepped.world.calls =
      s.world.calls ++ .quiesce :: .memoryMap buffer.region answer :: rest ∧ s.stepped.IsClosed := by
  have haction : Boot.action s.state s.announced = Boot.terminateFirmwareServices s.announced := by
    rw [hs]
    rfl
  obtain ⟨answer, rest, hrest, hcalls, hnone, hlast⟩ :=
    Boot.terminateFirmwareServices_of_some (s := s.announced) hbuffer
  rw [calls_announced] at hcalls
  refine ⟨answer, rest, hrest, ?_⟩
  cases hdone : Boot.terminateFirmwareServices s.announced with
  | ok _ t =>
    rw [hdone] at hcalls
    rw [stepped_of_ok (haction.trans hdone), hs]
    exact ⟨hcalls, .inr rfl⟩
  | error e t =>
    rw [hdone] at hcalls hnone hlast
    rw [stepped_of_error (haction.trans hdone)]
    exact ⟨hcalls, .inl ⟨hlast.trans hs, hnone⟩⟩

/-- A step takes the boot from one stage to the next, or leaves it where it is. -/
theorem Stage.stepped (h : Stage s made) :
    ∃ new, s.stepped.world.calls = s.world.calls ++ new ∧ Stage s.stepped (made ++ new) := by
  cases h with
  | unreserved hstate hmade =>
    by_cases hacquire : s.state = .acquireMemoryMap
    · obtain ⟨new, hcalls, -, hstage⟩ := stepped_of_acquire hacquire hmade
      exact ⟨new, hcalls, hstage⟩
    · have hterminate : s.state ≠ .terminateFirmwareServices := fun h => by
        rw [h] at hstate
        exact absurd hstate (by decide)
      obtain ⟨hcalls, hnext⟩ := stepped_of_callFree hacquire hterminate
      refine ⟨[], hcalls.trans (List.append_nil _).symm, .unreserved ?_ ?_⟩
      · rcases hnext with hnext | hnext <;> rw [hnext]
        · exact hstate
        · have hremaining : s.state.remaining ≠ 4 := fun h =>
            hacquire (BootState.remaining_inj.mp h)
          rw [BootState.remaining_next]
          omega
      · rwa [List.append_nil]
  | @reserved pre size buffer hstate hbuffer hpre hmade =>
    obtain ⟨answer, rest, hrest, hcalls, hclosed⟩ := stepped_of_reserved hstate hbuffer
    refine ⟨_, hcalls, .closed hclosed ⟨pre, size, buffer.region, answer, rest, hpre, hrest, ?_⟩⟩
    rw [hmade, List.append_assoc]
    rfl
  | closed hstate hmade =>
    obtain ⟨hcalls, hclosed⟩ := hstate.stepped
    refine ⟨[], hcalls.trans (List.append_nil _).symm, .closed hclosed ?_⟩
    rwa [List.append_nil]

end Session

/-! ## What the calls show -/

/-- The services were ended, or the map was asked for in the region that was reserved for it. -/
def Spent (made : List Event) : Prop :=
  (∃ key left, Event.exit key left ∈ made) ∨
    ∃ size region answer, [.allocate size (.ok region), .memoryMap region answer].Sublist made

/-- The only item of a kind is where the list is split. -/
theorem split_at_only {γ : Type} {P : γ → Bool} {front back before after : List γ} {x y : γ}
    (hfront : ∀ e ∈ front, P e = false) (hback : ∀ e ∈ back, P e = false) (hy : P y = true)
    (h : front ++ x :: back = before ++ y :: after) : before = front ∧ y = x ∧ after = back := by
  induction front generalizing before with
  | nil =>
    cases before with
    | nil =>
      cases h
      exact ⟨rfl, rfl, rfl⟩
    | cons b before =>
      rw [List.nil_append, List.cons_append, List.cons.injEq] at h
      obtain ⟨rfl, rfl⟩ := h
      rw [hback y (List.mem_append_right _ List.mem_cons_self)] at hy
      cases hy
  | cons a front ih =>
    rw [List.forall_mem_cons] at hfront
    cases before with
    | nil =>
      cases h
      rw [hfront.1] at hy
      cases hy
    | cons b before =>
      rw [List.cons_append, List.cons_append, List.cons.injEq] at h
      obtain ⟨rfl, h⟩ := h
      obtain ⟨rfl, hrest⟩ := ih hfront.2 h
      exact ⟨rfl, hrest⟩

/-- The only item of a kind, at the end of a list, is where the list is split. -/
theorem split_at_last {γ : Type} {P : γ → Bool} {front before after : List γ} {x y : γ}
    (hfront : ∀ e ∈ front, P e = false) (hy : P y = true)
    (h : front ++ [x] = before ++ y :: after) : before = front ∧ y = x ∧ after = [] :=
  split_at_only hfront (List.forall_mem_nil _) hy h

theorem not_spent_of_prelude {pre : List Event} (h : ∀ e ∈ pre, e.isPrelude = true) :
    ¬ Spent pre := by
  rintro (⟨key, left, hmem⟩ | ⟨size, region, answer, hsub⟩)
  · cases h _ hmem
  · cases h _ (hsub.subset List.mem_cons_self)

theorem not_spent_of_reserved {pre : List Event} {size : Nat} {region : Region}
    (h : ∀ e ∈ pre, e.isPrelude = true) : ¬ Spent (pre ++ [.allocate size (.ok region)]) := by
  rintro (⟨key, left, hmem⟩ | ⟨size', region', answer, hsub⟩)
  · rcases List.mem_append.mp hmem with hmem | hmem
    · cases h _ hmem
    · cases List.mem_singleton.mp hmem
  · obtain ⟨first, last, hsplit, hfirst, hlast⟩ := List.sublist_append_iff.mp hsub
    rcases List.sublist_singleton.mp hlast with rfl | rfl
    · rw [List.append_nil] at hsplit
      cases h _ (hfirst.subset (hsplit ▸ List.mem_cons_self))
    · have hlast := congrArg List.getLast? hsplit
      simp at hlast

namespace Session

variable {s : Session φ μ} {made : List Event}

theorem Stage.isClosed (h : Stage s made) (hspent : Spent made) : s.IsClosed := by
  cases h with
  | unreserved _ hmade => exact absurd hspent (not_spent_of_prelude hmade)
  | reserved _ _ hpre hmade => exact absurd (hmade ▸ hspent) (not_spent_of_reserved hpre)
  | closed hstate _ => exact hstate

theorem not_isExit_of_follows {made : List Event} {pre : List Event} {size : Nat} {region : Region}
    {answer : MapQuery} (hpre : ∀ e ∈ pre, e.isPrelude = true)
    (hmade : made = pre ++ [.allocate size (.ok region), .quiesce, .memoryMap region answer]) :
    ∀ e ∈ made, e.isExit = false := by
  intro e he
  rw [hmade] at he
  rcases List.mem_append.mp he with he | he
  · exact not_isExit_of_isPrelude (hpre e he)
  · simp only [List.mem_cons, List.not_mem_nil, or_false] at he
    rcases he with rfl | rfl | rfl <;> rfl

/-- Where the services are ended there is one such call, the last of all, and before it the buffer
was reserved, the output quieted, and the map asked for, which came with the key. -/
theorem Stage.exit (h : Stage s made) :
    (∀ e ∈ made, e.isExit = false) ∨ ∃ pre size region key layout left,
      (∀ e ∈ pre, Event.isExit e = false) ∧ made = pre ++ [.exit key left] ∧
      [.allocate size (.ok region), .quiesce, .memoryMap region (.filled key layout)] <:+ pre := by
  cases h with
  | unreserved _ hmade => exact .inl fun e he => not_isExit_of_isPrelude (hmade e he)
  | @reserved pre size buffer _ _ hpre hmade =>
    left
    intro e he
    rw [hmade] at he
    rcases List.mem_append.mp he with he | he
    · exact not_isExit_of_isPrelude (hpre e he)
    · rw [List.mem_singleton.mp he]
      rfl
  | closed _ hclosed =>
    obtain ⟨pre, size, region, answer, rest, hpre, hrest, hmade⟩ := hclosed
    rcases hrest with rfl | ⟨key, layout, left, rfl, rfl⟩
    · exact .inl (not_isExit_of_follows hpre hmade)
    · right
      refine ⟨pre ++ [.allocate size (.ok region), .quiesce, .memoryMap region (.filled key layout)],
        size, region, key, layout, left, not_isExit_of_follows hpre rfl, ?_, List.suffix_append _ _⟩
      rw [hmade, List.append_assoc]
      rfl

variable [Firmware φ] [Mapping μ]

theorem stage_afterSteps (world : World φ) (memory : μ) (config : BootConfig) (n : Nat) :
    ∃ made, ((start world memory config).afterSteps n).world.calls = world.calls ++ made ∧
      Stage ((start world memory config).afterSteps n) made := by
  have hstart : 4 ≤ BootState.detect.remaining := by decide
  refine afterSteps_induction (I := fun t => ∃ made, t.world.calls = world.calls ++ made ∧ Stage t made)
    ?_ ⟨[], (List.append_nil _).symm, .unreserved hstart (List.forall_mem_nil _)⟩ n
  rintro t ⟨made, hcalls, hstage⟩
  obtain ⟨new, hnew, hstage'⟩ := hstage.stepped
  exact ⟨made ++ new, by rw [hnew, hcalls, List.append_assoc], hstage'⟩

/-- Whatever the firmware answers and however often a boot is stepped: the services are ended at
most once, right after the map was asked for in the buffer reserved for it and with the key that
came as the answer; and once they are ended, or the map was asked for in that buffer, no call
follows. -/
theorem exit_protocol (world : World φ) (memory : μ) (config : BootConfig) (n : Nat) :
    ∃ made, ((start world memory config).afterSteps n).world.calls = world.calls ++ made ∧
      made.countP Event.isExit ≤ 1 ∧
      (∀ before key left after, made = before ++ .exit key left :: after →
        after = [] ∧ ∃ size region layout,
          [.allocate size (.ok region), .quiesce, .memoryMap region (.filled key layout)] <:+
            before) ∧
      (Spent made → ∀ k, ((start world memory config).afterSteps (n + k)).world.calls =
        ((start world memory config).afterSteps n).world.calls) := by
  obtain ⟨made, hcalls, hstage⟩ := stage_afterSteps world memory config n
  have hquiet : Spent made → ∀ k, ((start world memory config).afterSteps (n + k)).world.calls =
      ((start world memory config).afterSteps n).world.calls := by
    intro hspent k
    rw [afterSteps_add]
    exact (hstage.isClosed hspent).afterSteps k
  rcases hstage.exit with hnone | ⟨pre, size, region, key, layout, left, hpre, hmade, hsuffix⟩
  · refine ⟨made, hcalls, ?_, fun before key left after hsplit => ?_, hquiet⟩
    · rw [List.countP_eq_zero.mpr fun e he => Bool.eq_false_iff.mp (hnone e he)]
      exact Nat.zero_le 1
    · have hmem : Event.exit key left ∈ made := by
        rw [hsplit]
        exact List.mem_append_right _ List.mem_cons_self
      cases hnone _ hmem
  · refine ⟨made, hcalls, ?_, fun before key' left' after hsplit => ?_, hquiet⟩
    · rw [hmade, List.countP_append,
        List.countP_eq_zero.mpr fun e he => Bool.eq_false_iff.mp (hpre e he)]
      exact Nat.le_refl 1
    · obtain ⟨rfl, hlast, hafter⟩ := split_at_last (P := Event.isExit) hpre rfl (hmade ▸ hsplit)
      cases hlast
      exact ⟨hafter, size, region, layout, hsuffix⟩

end Session

end BootLoader
