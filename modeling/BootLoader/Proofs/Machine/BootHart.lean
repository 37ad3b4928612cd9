import BootLoader.Firmware.Scripted
import BootLoader.Proofs.Machine.Calls
import Mathlib.Data.List.Induction

/-! The boot hart on the hardware of riscv64. Each hook that needs it asks the firmware once, until
the firmware has named a hart; from then on the firmware is left alone. A hart whose number is the
mark for none is answered, but never remembered. -/

namespace BootLoader

variable {φ : Type} [Firmware φ]

inductive HartHook where
  | bootCpu | beforeExit
deriving DecidableEq

namespace HartHook

def hook : HartHook → Hook
  | bootCpu => .bootCpu
  | beforeExit => .beforeExit

def naming (hart : UInt64) : HartHook → Option UInt64
  | bootCpu => some hart
  | beforeExit => none

/-- The hook of a platform, with the hart if it answers that. -/
def run (p : Platform) : HartHook → Host φ PlatformError (Option UInt64)
  | bootCpu => do return some (← Host.bootCpu p)
  | beforeExit => do
    Host.beforeExit p
    return none

end HartHook

namespace World

/-- The hart that a platform remembers, or the mark for none. -/
def hart (w : World φ) (p : Platform) : UInt64 := (w.machine.device p).bootHart

def afterHooks (w : World φ) (p : Platform) (hooks : List HartHook) : World φ :=
  hooks.foldl (fun w k => final (k.run p w)) w

theorem hart_say (w : World φ) (p : Platform) (line : Line) : (w.say line).hart p = w.hart p := by
  apply view_say fun m => (m.device p).bootHart
  intro m q u
  by_cases h : p.id = q.id <;> simp [Machine.device, Machine.setDevice, h]

theorem hart_sayAll (w : World φ) (p : Platform) (lines : List Line) :
    (w.sayAll lines).hart p = w.hart p := by
  induction lines generalizing w with
  | nil => rfl
  | cons line lines ih => exact (ih (w.say line)).trans (w.hart_say p line)

end World

namespace Host

variable {p : Platform} {w : World φ}

/-- The answer is heard of, and a hart is not remembered by that alone. -/
theorem bootHart_apply {ε : Type} (w : World φ) :
    ∃ u, (bootHart : Host φ ε (Option UInt64)) w = .ok (Firmware.bootHart w.firmware).1.hart u ∧
      u.calls = w.calls ++ [.bootHart (Firmware.bootHart w.firmware).1.hart] ∧
      ∀ p, u.hart p = w.hart p := by
  let reply := (Firmware.bootHart w.firmware).1
  let asked : World φ :=
    ⟨w.machine.record (.bootHart reply.hart), (Firmware.bootHart w.firmware).2⟩
  let said := asked.sayAll reply.said
  refine ⟨{ said with firmware := Firmware.releaseHart said.firmware }, rfl, ?_, fun p => ?_⟩
  · exact (patient_calls.sayAll asked reply.said).trans (World.calls_record w _ rfl)
  · exact asked.hart_sayAll p reply.said

theorem queryHart_of_known (h : w.hart p ≠ Device.unknownHart) : queryHart p w = .ok (w.hart p) w := by
  have hknown : (w.machine.device p).bootHart ≠ Device.unknownHart := h
  unfold queryHart
  rw [get_bind]
  dsimp only
  rw [if_pos hknown]
  rfl

/-- As long as no hart is remembered, the firmware is asked. -/
theorem queryHart_of_unknown (h : w.hart p = Device.unknownHart) :
    ∃ u, u.calls = w.calls ++ [.bootHart (Firmware.bootHart w.firmware).1.hart] ∧
      u.hart p = (Firmware.bootHart w.firmware).1.hart.getD Device.unknownHart ∧
      queryHart p w = match (Firmware.bootHart w.firmware).1.hart with
        | none => .error .bootCpuUnavailable u
        | some hart => .ok hart u := by
  have hunknown : (w.machine.device p).bootHart = Device.unknownHart := h
  obtain ⟨u, hasked, hcalls, hhart⟩ := bootHart_apply (ε := PlatformError) w
  unfold queryHart
  rw [get_bind]
  dsimp only
  rw [if_neg (not_not_intro hunknown), bind_of_ok hasked]
  cases hanswer : (Firmware.bootHart w.firmware).1.hart with
  | none =>
    rw [hanswer] at hcalls
    exact ⟨u, hcalls, (hhart p).trans h, rfl⟩
  | some hart =>
    rw [hanswer] at hcalls
    refine ⟨_, ?_, ?_, rfl⟩
    · rw [World.calls_of_trail (World.trail_say _ _)]
      exact hcalls
    · rw [World.hart_say]
      simp [World.hart]

end Host

/-! ## The hooks -/

namespace HartHook

def begun (k : HartHook) (w : World φ) : World φ := { w with machine := w.machine.record (.hook k.hook) }

variable {k : HartHook} {w u : World φ}

theorem run_of_ok {hart : UInt64} (h : Host.queryHart (.builtIn .riscV64) (k.begun w) = .ok hart u) :
    k.run (.builtIn .riscV64) w = .ok (k.naming hart) u := by
  cases k with
  | bootCpu =>
    change (Host.queryHart (.builtIn .riscV64) >>= fun hart => pure (some hart)) _ = _
    exact bind_of_ok h
  | beforeExit =>
    change (discard (Host.queryHart (.builtIn .riscV64)) >>= fun _ => pure none) _ = _
    have hdiscard : discard (Host.queryHart (.builtIn .riscV64)) (begun .beforeExit w) = .ok () u :=
      bind_of_ok h
    exact bind_of_ok hdiscard

theorem run_of_error {e : PlatformError}
    (h : Host.queryHart (.builtIn .riscV64) (k.begun w) = .error e u) :
    k.run (.builtIn .riscV64) w = .error e u := by
  cases k with
  | bootCpu =>
    change (Host.queryHart (.builtIn .riscV64) >>= fun hart => pure (some hart)) _ = _
    exact bind_of_error h
  | beforeExit =>
    change (discard (Host.queryHart (.builtIn .riscV64)) >>= fun _ => pure none) _ = _
    have hdiscard : discard (Host.queryHart (.builtIn .riscV64)) (begun .beforeExit w) = .error e u :=
      bind_of_error h
    exact bind_of_error hdiscard

theorem calls_begun (k : HartHook) (w : World φ) : (k.begun w).calls = w.calls :=
  patient_calls.inner w _ rfl

/-- With a hart remembered, a hook succeeds without a call to the firmware. -/
theorem run_of_known (k : HartHook) (h : w.hart (.builtIn .riscV64) ≠ Device.unknownHart) :
    k.run (.builtIn .riscV64) w = .ok (k.naming (w.hart (.builtIn .riscV64))) (k.begun w) :=
  run_of_ok (Host.queryHart_of_known (w := k.begun w) h)

/-- With none remembered, a hook makes one call to the firmware and goes by its answer. -/
theorem run_of_unknown (k : HartHook) (h : w.hart (.builtIn .riscV64) = Device.unknownHart) :
    ∃ u, u.calls = w.calls ++ [.bootHart (Firmware.bootHart w.firmware).1.hart] ∧
      u.hart (.builtIn .riscV64) = (Firmware.bootHart w.firmware).1.hart.getD Device.unknownHart ∧
      k.run (.builtIn .riscV64) w = match (Firmware.bootHart w.firmware).1.hart with
        | none => .error .bootCpuUnavailable u
        | some hart => .ok (k.naming hart) u := by
  obtain ⟨u, hcalls, hhart, hquery⟩ := Host.queryHart_of_unknown (w := k.begun w) h
  rw [calls_begun] at hcalls
  change u.calls = w.calls ++ [.bootHart (Firmware.bootHart w.firmware).1.hart] at hcalls
  change u.hart _ = (Firmware.bootHart w.firmware).1.hart.getD Device.unknownHart at hhart
  change Host.queryHart _ _ = match (Firmware.bootHart w.firmware).1.hart with
    | none => .error .bootCpuUnavailable u
    | some hart => .ok hart u at hquery
  refine ⟨u, hcalls, hhart, ?_⟩
  cases hanswer : (Firmware.bootHart w.firmware).1.hart with
  | none =>
    rw [hanswer] at hquery
    exact run_of_error hquery
  | some hart =>
    rw [hanswer] at hquery
    exact run_of_ok hquery

end HartHook

/-! ## Any number of them -/

/-- The hart that the firmware names, if it names one that can be remembered. -/
def Event.hart? : Event → Option UInt64
  | .bootHart (some hart) => if hart = Device.unknownHart then none else some hart
  | _ => none

theorem Event.ne_of_hart? {e : Event} {hart : UInt64} (h : e.hart? = some hart) :
    hart ≠ Device.unknownHart := by
  unfold hart? at h
  split at h
  · split at h
    · cases h
    · rename_i hne
      cases h
      exact hne
  · cases h

theorem Event.hart?_bootHart (answer : Option UInt64) :
    (Event.bootHart answer).hart?.getD Device.unknownHart = answer.getD Device.unknownHart := by
  cases answer with
  | none => rfl
  | some hart =>
    unfold hart?
    dsimp only
    split
    · rename_i hmark
      rw [hmark]
      rfl
    · rfl

namespace World

variable {w : World φ}

theorem afterHooks_concat (w : World φ) (p : Platform) (hooks : List HartHook) (k : HartHook) :
    w.afterHooks p (hooks ++ [k]) = final (k.run p (w.afterHooks p hooks)) := by
  rw [afterHooks, List.foldl_append]
  rfl

/-- The calls have led to this hart being remembered: the first that they named and that can be. -/
def Remembers (made : List Event) (w : World φ) : Prop :=
  w.hart (.builtIn .riscV64) = (made.findSome? Event.hart?).getD Device.unknownHart

omit [Firmware φ] in
theorem findSome?_of_unknown {made : List Event} {v : World φ} (h : v.Remembers made) :
    v.hart (.builtIn .riscV64) = Device.unknownHart ↔ made.findSome? Event.hart? = none := by
  rw [h]
  cases hmade : made.findSome? Event.hart? with
  | none => simp
  | some hart =>
    obtain ⟨_, e, _, -, he, -⟩ := List.findSome?_eq_some_iff.mp hmade
    simpa using Event.ne_of_hart? he

/-- Hooks call the firmware for the hart alone, and the first hart that can be remembered is. -/
theorem remembers_afterHooks (h : w.hart (.builtIn .riscV64) = Device.unknownHart)
    (hooks : List HartHook) :
    ∃ made, (w.afterHooks (.builtIn .riscV64) hooks).calls = w.calls ++ made ∧
      (∀ e ∈ made, ∃ answer, e = .bootHart answer) ∧
      (w.afterHooks (.builtIn .riscV64) hooks).Remembers made := by
  induction hooks using List.reverseRecOn with
  | nil => exact ⟨[], (List.append_nil _).symm, by simp, h⟩
  | append_singleton hooks k ih =>
    obtain ⟨made, hcalls, hmade, hhart⟩ := ih
    rw [afterHooks_concat]
    generalize w.afterHooks (.builtIn .riscV64) hooks = v at hcalls hhart ⊢
    by_cases hv : v.hart (.builtIn .riscV64) = Device.unknownHart
    · obtain ⟨u, hasked, hnamed, hrun⟩ := k.run_of_unknown hv
      have hfinal : final (k.run (.builtIn .riscV64) v) = u := by
        rw [hrun]
        cases (Firmware.bootHart v.firmware).1.hart <;> rfl
      rw [hfinal]
      refine ⟨made ++ [.bootHart (Firmware.bootHart v.firmware).1.hart], ?_, ?_, ?_⟩
      · rw [hasked, hcalls, List.append_assoc]
      · intro e he
        rcases List.mem_append.mp he with he | he
        · exact hmade e he
        · exact ⟨_, List.mem_singleton.mp he⟩
      · rw [Remembers, hnamed, List.findSome?_append, (findSome?_of_unknown hhart).mp hv]
        simpa using (Event.hart?_bootHart _).symm
    · rw [k.run_of_known hv]
      exact ⟨made, (k.calls_begun v).trans hcalls, hmade, hhart⟩

end World

/-- After any hooks: unless the firmware has named a hart that can be remembered, a hook asks it
exactly once, and succeeds if it has an answer; but with such a hart named before, the hook succeeds
without a call to the firmware, and the first such hart is the answer. Whatever the number, a hart
is answered at once. -/
theorem HartHook.asked_until_known {w : World φ}
    (h : w.hart (.builtIn .riscV64) = Device.unknownHart) (earlier : List HartHook) (k : HartHook) :
    let v := w.afterHooks (.builtIn .riscV64) earlier
    ∃ made, v.calls = w.calls ++ made ∧ (∀ e ∈ made, ∃ answer, e = .bootHart answer) ∧
      match made.findSome? Event.hart? with
      | none => ∃ u, u.calls = v.calls ++ [.bootHart (Firmware.bootHart v.firmware).1.hart] ∧
          k.run (.builtIn .riscV64) v = match (Firmware.bootHart v.firmware).1.hart with
            | none => .error .bootCpuUnavailable u
            | some hart => .ok (k.naming hart) u
      | some hart => ∃ u, u.calls = v.calls ∧
          k.run (.builtIn .riscV64) v = .ok (k.naming hart) u := by
  obtain ⟨made, hcalls, hmade, hhart⟩ := World.remembers_afterHooks h earlier
  refine ⟨made, hcalls, hmade, ?_⟩
  have hiff := World.findSome?_of_unknown hhart
  rw [World.Remembers] at hhart
  generalize w.afterHooks (.builtIn .riscV64) earlier = v at hhart hiff ⊢
  cases hfirst : made.findSome? Event.hart? with
  | none =>
    obtain ⟨u, hasked, -, hrun⟩ := k.run_of_unknown (hiff.mpr hfirst)
    exact ⟨u, hasked, hrun⟩
  | some hart =>
    have hknown : v.hart (.builtIn .riscV64) ≠ Device.unknownHart := by
      rw [Ne, hiff, hfirst]
      exact nofun
    rw [hfirst, Option.getD_some] at hhart
    refine ⟨k.begun v, k.calls_begun v, ?_⟩
    rw [k.run_of_known hknown, hhart]

def Sample.hartWorld (hart : UInt64) : World ScriptedFirmware :=
  ⟨.fresh ⟨0, false⟩, { ScriptedFirmware.plain with hart := some hart }⟩

namespace HartHook

theorem asked_until_known_sample :
    let v := (Sample.hartWorld 3).afterHooks (.builtIn .riscV64) [.beforeExit]
    v.calls.length = 1 ∧
      ∃ u, u.calls = v.calls ∧ bootCpu.run (.builtIn .riscV64) v = .ok (some 3) u := by
  obtain ⟨made, hcalls, -, hcase⟩ :=
    asked_until_known (w := Sample.hartWorld 3) (by decide) [.beforeExit] .bootCpu
  have hmade : made = [.bootHart (some 3)] := hcalls.symm
  subst hmade
  exact ⟨rfl, hcase⟩

/-- A hart whose number is the mark for none is asked for again, so a hook can fail after it was
named. -/
theorem asked_again :
    let w := Sample.hartWorld Device.unknownHart
    let v := w.afterHooks (.builtIn .riscV64) [.bootCpu]
    success? (bootCpu.run (.builtIn .riscV64) w) = some (some Device.unknownHart) ∧
      (final (bootCpu.run (.builtIn .riscV64) v)).calls.length = v.calls.length + 1 ∧
      failure? (beforeExit.run (.builtIn .riscV64) { v with firmware := ScriptedFirmware.plain }) =
        some .bootCpuUnavailable := by
  decide

end HartHook

end BootLoader
