import BootLoader.Proofs.Handoff.Context
import BootLoader.Proofs.Handoff.Integrity
import BootLoader.Proofs.Uefi.Demands

/-! A boot over the firmware's system table. Once the firmware was quieted it prints nothing more;
the call before the exit is the one that the exit has its key from; and once the exit was accepted
no call is made again, whoever asks. -/

namespace BootLoader.Uefi

variable {μ : Type}

open Session World

/-! ## What a boot asks for -/

/-- The firmware served these demands, one after the other, and what is noted of them was noted. -/
structure Served (ds : List Demand) (w w' : World UefiFirmware) : Prop where
  firmware : w'.firmware = Demand.serveAll w.firmware ds
  calls : w'.calls = w.calls ++ Demand.events w.firmware ds

theorem Served.events_append {ds : List Demand} {w w' : World UefiFirmware} (h : Served ds w w')
    (ds' : List Demand) : Demand.events w.firmware (ds ++ ds') =
      Demand.events w.firmware ds ++ Demand.events w'.firmware ds' := by
  rw [Demand.events_append, h.firmware]

theorem Served.trans {ds ds' : List Demand} {w w' w'' : World UefiFirmware} (h : Served ds w w')
    (h' : Served ds' w' w'') : Served (ds ++ ds') w w'' where
  firmware := by rw [h'.firmware, h.firmware, Demand.serveAll_append]
  calls := by rw [h'.calls, h.calls, h.events_append, List.append_assoc]

def Asks (w w' : World UefiFirmware) : Prop := ∃ ds, (∀ d ∈ ds, d.ofBoot = true) ∧ Served ds w w'

instance : IsPreorder (World UefiFirmware) Asks where
  refl w := ⟨[], List.forall_mem_nil _, rfl, (List.append_nil _).symm⟩
  trans u v w := by
    rintro ⟨ds, hds, hv⟩ ⟨ds', hds', hw⟩
    exact ⟨ds ++ ds', fun d hd => (List.mem_append.mp hd).elim (hds d) (hds' d), hv.trans hw⟩

theorem asks_of_idle {w w' : World UefiFirmware} (hfirmware : w'.firmware = w.firmware)
    (hcalls : w'.calls = w.calls) : Asks w w' :=
  ⟨[], List.forall_mem_nil _, hfirmware, hcalls.trans (List.append_nil _).symm⟩

/-- Of what is said, the lines that the logger keeps are printed. -/
theorem firmware_sayAll (lines : List Line) (w : World UefiFirmware) :
    ∃ printed, (w.sayAll lines).firmware = w.firmware.printAll printed := by
  induction lines generalizing w with
  | nil => exact ⟨[], rfl⟩
  | cons line lines ih =>
    obtain ⟨printed, hprinted⟩ := ih (w.say line)
    by_cases hkept : line.level.rank ≤ w.machine.logger.threshold
    · have hsaid : (w.say line).firmware = w.firmware.print line := by
        rw [World.say, if_pos hkept]
        rfl
      exact ⟨line :: printed, hprinted.trans (congrArg (·.printAll printed) hsaid)⟩
    · have hsame : w.say line = w := by rw [World.say, if_neg hkept]
      rw [hsame] at hprinted
      exact ⟨printed, (congrArg (fun v => (v.sayAll lines).firmware) hsame).trans hprinted⟩

theorem asks_bootHart : Keeps Asks (Host.bootHart : Host UefiFirmware Empty (Option UInt64)) := by
  intro w
  let reply := (Firmware.bootHart w.firmware).1
  let asked : World UefiFirmware :=
    ⟨w.machine.record (.bootHart reply.hart), (Firmware.bootHart w.firmware).2⟩
  obtain ⟨printed, hprinted⟩ := firmware_sayAll reply.said asked
  refine ⟨[.bootHart printed], by simp [Demand.ofBoot], ?_, ?_⟩
  · exact congrArg Firmware.releaseHart hprinted
  · exact (patient_calls.sayAll asked reply.said).trans (calls_record w _ rfl)

theorem lenient_asks : Lenient Asks where
  say w line := by
    have hcalls : (w.say line).calls = w.calls := calls_of_trail (w.trail_say line)
    by_cases hkept : line.level.rank ≤ w.machine.logger.threshold
    · refine ⟨[.print line], by simp [Demand.ofBoot], ?_, hcalls.trans (List.append_nil _).symm⟩
      rw [World.say, if_pos hkept]
      rfl
    · refine asks_of_idle ?_ hcalls
      rw [World.say, if_neg hkept]
  machine w m h := asks_of_idle rfl (calls_of_trail h.trail)
  inner w e h := asks_of_idle rfl (patient_calls.inner w e h)
  bootHart := asks_bootHart
  memoryMap buffer w := ⟨[.memoryMap buffer], by simp [Demand.ofBoot], rfl, calls_record w _ rfl⟩
  allocate size w := ⟨[.allocate size], by simp [Demand.ofBoot], rfl, calls_record w _ rfl⟩
  quiesce w := ⟨[.quiesce], by simp [Demand.ofBoot], rfl, calls_record w _ rfl⟩
  exit key w := ⟨[.exit key], by simp [Demand.ofBoot], rfl, calls_record w _ rfl⟩

/-! ## The end of the services -/

/-- One exit was tried. The call before it is the last that asked for the map, and the exit has its
key from the answer; and if the exit was accepted, nothing came after it. -/
structure Exited (f₀ f : UefiFirmware) (earlier after : List Call) (answer : MapAnswer) :
    Prop where
  first : ∀ c ∈ earlier, c.isExit = false
  last : ∀ c ∈ after, c.isExit = false ∧ c.isMap = false
  key : f₀.system.maps[earlier.countP (·.isMap)]? = some answer
  success : answer.status.isSuccess = true
  console : f.consoleOn = false
  gone : f₀.system.Accepts → after = [] ∧ f.Gone

inductive Standing (f₀ : UefiFirmware) (s : Session UefiFirmware μ) (made : List Call) : Prop
  | untried (hmade : ∀ c ∈ made, c.isExit = false)
  | exited {earlier after : List Call} {size : Nat} {null : Bool} {answer : MapAnswer}
    (hclosed : s.IsClosed)
    (hmade : made = earlier ++
      .system (.getMemoryMap size null) :: .system (.exitBootServices answer.key) :: after)
    (h : Exited f₀ s.world.firmware earlier after answer)

/-- What the firmware was asked for, the calls that this led to, and how far the boot has come. -/
structure Account (w : World UefiFirmware) (s : Session UefiFirmware μ) (ds : List Demand)
    (made : List Call) : Prop where
  served : Served ds w s.world
  leads : w.firmware.Leads s.world.firmware (Demand.events w.firmware ds) made
  stage : Stage s (Demand.events w.firmware ds)
  standing : Standing w.firmware s made

variable {w : World UefiFirmware} {s s' : Session UefiFirmware μ} {ds ds' : List Demand}
  {made : List Call}

/-- Where no exit is tried, the calls stand as they stood. -/
theorem Account.extend (h : Account w s ds made) (hserved : Served ds' s.world s'.world)
    (hstage : Stage s' (Demand.events w.firmware ds ++ Demand.events s.world.firmware ds'))
    (hexits : ∀ e ∈ Demand.events s.world.firmware ds', e.isExit = false)
    (hclosed : s.IsClosed → s'.IsClosed ∧ Demand.events s.world.firmware ds' = []) :
    ∃ made', Account w s' (ds ++ ds') made' := by
  obtain ⟨new, hnew⟩ := Demand.leads_serveAll s.world.firmware ds'
  rw [← hserved.firmware] at hnew
  refine ⟨made ++ new, h.served.trans hserved, ?_, ?_, ?_⟩
  · rw [h.served.events_append]
    exact h.leads.trans hnew
  · rw [h.served.events_append]
    exact hstage
  · have hnone : new.countP (·.isExit) ≤ 0 := by
      rw [← List.countP_eq_zero.mpr fun e he => Bool.eq_false_iff.mp (hexits e he)]
      exact hnew.exits_le
    cases h.standing with
    | untried hmade =>
      refine .untried fun c hc => ?_
      exact (List.mem_append.mp hc).elim (hmade c) (forall_of_countP_le hnone c)
    | @exited earlier after size null answer hs hmade hexited =>
      obtain ⟨hs', hquiet⟩ := hclosed hs
      rw [hquiet] at hnew
      have hsplit : made ++ new = earlier ++ .system (.getMemoryMap size null) ::
          .system (.exitBootServices answer.key) :: (after ++ new) := by
        rw [hmade, List.append_assoc]
        rfl
      refine .exited hs' hsplit { hexited with
        last := fun c hc => ?_
        console := hnew.console hexited.console
        gone := fun haccepts => ?_ }
      · refine (List.mem_append.mp hc).elim (hexited.last c) fun hc => ?_
        exact ⟨forall_of_countP_le hnew.exits_le c hc, forall_of_countP_le hnew.maps_le c hc⟩
      · obtain ⟨hafter, hgone⟩ := hexited.gone haccepts
        have hsame : s'.world.firmware = s.world.firmware := by
          rw [hserved.firmware, Demand.serveAll_of_gone hgone hquiet]
        have hhistory := hnew.history
        rw [hsame, List.self_eq_append_right] at hhistory
        rw [hsame, hafter, hhistory]
        exact ⟨rfl, hgone⟩

/-- The step that ends the services, where it comes to the exit. -/
theorem Account.exit (h : Account w s ds made) (hserved : Served ds' s.world s'.world)
    (hboot : ∀ d ∈ ds', d.ofBoot = true) (hnot : ¬ s.IsClosed) (hclosed : s'.IsClosed)
    {region : Region} {key : MapKey} {layout : MapLayout} {left : Except Status Unit}
    (hevents : Demand.events s.world.firmware ds' =
      [.quiesce, .memoryMap region (.filled key layout), .exit key left])
    (hstage : Stage s' (Demand.events w.firmware ds ++ Demand.events s.world.firmware ds')) :
    ∃ made', Account w s' (ds ++ ds') made' := by
  have huntried : ∀ c ∈ made, c.isExit = false := by
    cases h.standing with
    | untried hmade => exact hmade
    | exited hs => exact absurd hs hnot
  obtain ⟨said, answer, hled, hsaid, hget, hsuccess, rfl, hconsole, hgone⟩ :=
    Demand.calls_of_exit hboot hevents
  rw [← hserved.firmware] at hled hconsole hgone
  have hnoted := h.served.events_append ds'
  have hsplit : made ++ (said ++ [.system (.getMemoryMap region.len region.isEmpty),
      .system (.exitBootServices answer.key)]) = (made ++ said) ++
        .system (.getMemoryMap region.len region.isEmpty) ::
          .system (.exitBootServices answer.key) :: [] :=
    (List.append_assoc ..).symm
  refine ⟨_, h.served.trans hserved, hnoted ▸ h.leads.trans hled, hnoted ▸ hstage, .exited hclosed hsplit
    ⟨fun c hc => ?_, List.forall_mem_nil _, ?_, hsuccess, hconsole, fun haccepts => ?_⟩⟩
  · exact (List.mem_append.mp hc).elim (huntried c) fun hc => (hsaid c hc).1
  · rw [h.leads.maps, List.getElem?_drop] at hget
    rw [List.countP_append, List.countP_eq_zero.mpr fun c hc => Bool.eq_false_iff.mp (hsaid c hc).2]
    exact hget
  · exact ⟨rfl, hgone (h.leads.accepts huntried haccepts)⟩

/-- What is no step leaves the boot where it is. -/
theorem Account.aside (h : Account w s ds made) (hserved : Served ds' s.world s'.world)
    (hcalls : s'.world.calls = s.world.calls) (hstate : s'.state = s.state)
    (hbuffer : s'.mapBuffer = s.mapBuffer) : ∃ ds' made', Account w s' ds' made' := by
  have hquiet : Demand.events s.world.firmware ds' = [] := by
    have hnone := hserved.calls
    rwa [hcalls, List.self_eq_append_right] at hnone
  have hstage : Stage s' (Demand.events w.firmware ds ++ Demand.events s.world.firmware ds') := by
    rw [hquiet, List.append_nil]
    cases h.stage with
    | unreserved hs hmade => exact .unreserved (hstate ▸ hs) hmade
    | reserved hs hsome hpre hmade =>
      exact .reserved (hstate.trans hs) (hbuffer.trans hsome) hpre hmade
    | closed hs hmade =>
      refine .closed ?_ hmade
      rwa [Session.IsClosed, hstate, hbuffer]
  refine ⟨ds ++ ds', h.extend hserved hstage ?_ fun hs => ⟨?_, hquiet⟩⟩
  · rw [hquiet]
    exact List.forall_mem_nil _
  · rwa [Session.IsClosed, hstate, hbuffer]

variable [Mapping μ]

/-- Before the map's buffer is there nothing ends the services. -/
theorem exits_of_stepped (hs : 4 ≤ s.state.remaining) : ∃ new,
    s.stepped.world.calls = s.world.calls ++ new ∧ ∀ e ∈ new, Event.isExit e = false := by
  by_cases hacquire : s.state = .acquireMemoryMap
  · obtain ⟨new, hcalls, hexits, -⟩ := stepped_of_acquire hacquire (List.forall_mem_nil _)
    exact ⟨new, hcalls, hexits⟩
  · have hterminate : s.state ≠ .terminateFirmwareServices := fun h => by
      rw [h] at hs
      exact absurd hs (by decide)
    exact ⟨[], (stepped_of_callFree hacquire hterminate).1.trans (List.append_nil _).symm,
      List.forall_mem_nil _⟩

theorem Account.stepped (h : Account w s ds made) :
    ∃ ds' made', Account w s.stepped ds' made' := by
  obtain ⟨ds', hboot, hserved⟩ : Asks s.world s.stepped.world := world_afterSteps lenient_asks s 1
  have hnoted : ∀ {new}, s.stepped.world.calls = s.world.calls ++ new →
      Demand.events s.world.firmware ds' = new := fun hcalls =>
    List.append_cancel_left (hserved.calls.symm.trans hcalls)
  obtain ⟨new, hcalls, hstage⟩ := h.stage.stepped
  rw [← hnoted hcalls] at hstage
  have hclosed : s.IsClosed → s.stepped.IsClosed ∧ Demand.events s.world.firmware ds' = [] := fun hs =>
    ⟨hs.stepped.2, hnoted (hs.stepped.1.trans (List.append_nil _).symm)⟩
  refine ⟨ds ++ ds', ?_⟩
  cases h.stage with
  | unreserved hs _ =>
    obtain ⟨new, hcalls, hexits⟩ := exits_of_stepped hs
    rw [← hnoted hcalls] at hexits
    exact h.extend hserved hstage hexits hclosed
  | closed hs _ =>
    refine h.extend hserved hstage ?_ hclosed
    rw [(hclosed hs).2]
    exact List.forall_mem_nil _
  | @reserved pre size buffer hs hbuffer _ _ =>
    obtain ⟨answer, rest, hrest, hcalls, hstepped⟩ := stepped_of_reserved hs hbuffer
    have hevents := hnoted hcalls
    rcases hrest with rfl | ⟨key, layout, left, rfl, rfl⟩
    · refine h.extend hserved hstage ?_ hclosed
      rw [hevents]
      simp [Event.isExit]
    · refine h.exit hserved hboot ?_ hstepped hevents hstage
      rintro (⟨-, hnone⟩ | hgone)
      · rw [hbuffer] at hnone
        cases hnone
      · rw [hs] at hgone
        cases hgone

/-! ## Whatever happens -/

/-- What can happen to a boot: a step, the end, and in between whatever else the loader has to say,
or wants from its pool. -/
inductive Happens (s₀ : Session UefiFirmware μ) : Session UefiFirmware μ → Prop
  | start : Happens s₀ s₀
  | step {s : Session UefiFirmware μ} (h : Happens s₀ s) : Happens s₀ s.stepped
  | transfer {s : Session UefiFirmware μ} (h : Happens s₀ s) : Happens s₀ s.transfer.2
  | fail {s : Session UefiFirmware μ} (h : Happens s₀ s) (e : BootError) : Happens s₀ (s.fail e).2
  | log {s : Session UefiFirmware μ} (h : Happens s₀ s) (line : Line) :
    Happens s₀ { s with world := s.world.say line }
  | alloc {s : Session UefiFirmware μ} (h : Happens s₀ s) (size align : Nat) :
    Happens s₀ { s with world.firmware := (s.world.firmware.alloc size align).2 }
  | dealloc {s : Session UefiFirmware μ} (h : Happens s₀ s) (block : Address) :
    Happens s₀ { s with world.firmware := s.world.firmware.dealloc block }

variable {memory : μ} {config : BootConfig}

theorem Happens.account (h : Happens (Session.start w memory config) s) :
    ∃ ds made, Account w s ds made := by
  induction h with
  | start =>
    have hstart : 4 ≤ BootState.detect.remaining := by decide
    exact ⟨[], [], ⟨rfl, (List.append_nil _).symm⟩, .refl w.firmware,
      .unreserved hstart (List.forall_mem_nil _), .untried (List.forall_mem_nil _)⟩
  | step _ ih =>
    obtain ⟨ds, made, h⟩ := ih
    exact h.stepped
  | @transfer s _ ih =>
    obtain ⟨ds, made, h⟩ := ih
    obtain ⟨hsame, ds', -, hserved⟩ := s.world_transfer lenient_asks.toPatient
    refine h.aside hserved (s.world_transfer patient_calls).2 ?_ ?_ <;> rw [hsame]
  | @fail s _ e ih =>
    obtain ⟨ds, made, h⟩ := ih
    obtain ⟨hsame, ds', -, hserved⟩ := s.world_fail lenient_asks.toQuiet e
    exact h.aside hserved (s.world_fail patient_calls.toQuiet e).2 rfl rfl
  | @log s _ line ih =>
    obtain ⟨ds, made, h⟩ := ih
    obtain ⟨ds', -, hserved⟩ := lenient_asks.say s.world line
    exact h.aside hserved (calls_of_trail (s.world.trail_say line)) rfl rfl
  | @alloc s _ size align ih =>
    obtain ⟨ds, made, h⟩ := ih
    have hserved : Served [.alloc size align] s.world
      { s.world with firmware := (s.world.firmware.alloc size align).2 } :=
        ⟨rfl, (List.append_nil _).symm⟩
    exact h.aside hserved rfl rfl rfl
  | @dealloc s _ block ih =>
    obtain ⟨ds, made, h⟩ := ih
    have hserved : Served [.dealloc block] s.world
      { s.world with firmware := s.world.firmware.dealloc block } := ⟨rfl, (List.append_nil _).symm⟩
    exact h.aside hserved rfl rfl rfl

theorem Happens.run (s₀ : Session UefiFirmware μ) : Happens s₀ s₀.run.2 := by
  have hsteps : ∀ n, Happens s₀ (s₀.afterSteps n) :=
    afterSteps_induction (I := Happens s₀) (fun _ h => h.step) .start
  cases hrun : Boot.runUntilTransfer s₀ with
  | ok _ t =>
    obtain ⟨n, rfl, -⟩ := Boot.runUntilTransfer_eq_ok hrun
    rw [run_of_ok hrun]
    exact (hsteps n).transfer
  | error e t =>
    obtain ⟨n, rfl⟩ := Boot.runUntilTransfer_eq_error hrun
    rw [run_of_error hrun]
    exact (hsteps (n + 1)).fail e

/-- Whatever the firmware answers and whatever else the loader does: nothing is printed once the
firmware was quieted; an exit is tried right after the map was asked for, for the last time, and
with the key that came with it; and if the exit is accepted no call is made again. Lines are dropped
then, nothing is handed out by the pool, and what is given back is leaked. -/
theorem quiescence (h : Happens (Session.start w memory config) s) :
    (∃ ds, Served ds w s.world) ∧
    (∀ before after, Served (before ++ .quiesce :: after) w s.world →
      ∃ since, s.world.firmware.system.history =
        (Demand.serveAll w.firmware before).system.history ++ since ∧
          ∀ c ∈ since, c.isService = true) ∧
    ∃ made, s.world.firmware.system.history = w.firmware.system.history ++ made ∧
      ∀ before key after, made = before ++ .system (.exitBootServices key) :: after →
        (∃ earlier size null answer, before = earlier ++ [.system (.getMemoryMap size null)] ∧
          w.firmware.system.maps[earlier.countP (·.isMap)]? = some answer ∧
          answer.status.isSuccess = true ∧ answer.key = key) ∧
        (∀ c ∈ before, c.isExit = false) ∧ (∀ c ∈ after, c.isExit = false ∧ c.isMap = false) ∧
        (w.firmware.system.Accepts → after = [] ∧
          (∀ line, Console.print line s.world.firmware = s.world.firmware) ∧
          (∀ size align, s.world.firmware.alloc size align = (.zero, s.world.firmware)) ∧
          ∀ block, s.world.firmware.dealloc block = s.world.firmware) := by
  obtain ⟨ds, made, haccount⟩ := h.account
  refine ⟨⟨ds, haccount.served⟩, fun before after hserved => ?_, made, haccount.leads.history,
    fun before key after hsplit => ?_⟩
  · rw [hserved.firmware]
    exact Demand.silent_after_quiesce w.firmware before after
  · cases haccount.standing with
    | untried hmade =>
      have hexit := hmade (.system (.exitBootServices key)) (by simp [hsplit])
      cases hexit
    | @exited earlier after' size null answer _ hmade hexited =>
      have hmap : made = (earlier ++ [.system (.getMemoryMap size null)]) ++
          .system (.exitBootServices answer.key) :: after' := by
        rw [hmade, List.append_assoc]
        rfl
      have hfirst : ∀ c ∈ earlier ++ [.system (.getMemoryMap size null)], Call.isExit c = false := by
        intro c hc
        rw [List.mem_append, List.mem_singleton] at hc
        rcases hc with hc | rfl
        · exact hexited.first c hc
        · rfl
      obtain ⟨rfl, hkey, rfl⟩ := split_at_only (P := Call.isExit) hfirst
        (fun c hc => (hexited.last c hc).1) rfl (hmap.symm.trans hsplit)
      cases hkey
      refine ⟨⟨earlier, size, null, answer, rfl, hexited.key, hexited.success, rfl⟩, hfirst,
        hexited.last, fun haccepts => ?_⟩
      obtain ⟨hafter, hgone⟩ := hexited.gone haccepts
      exact ⟨hafter, UefiFirmware.print_of_off hgone.console, hgone.alloc, hgone.dealloc⟩

namespace Sample

/-- A firmware that writes its map at the second request. -/
def system : System :=
  { System.plain with
    maps := [⟨.bufferTooSmall, ⟨0⟩, ⟨96, 48, 1⟩⟩, ⟨.success, ⟨7⟩, ⟨96, 48, 1⟩⟩] }

def smallConfig : BootConfig where
  platform := some { BootLoader.Sample.platform with preparation := [], cleanup := [] }
  hypervisor := ⟨.hypervisor, .ofList [1, 2], .ofNat 0x1000, .raw, .ofNat 0x3000⟩
  kernel := none
  kernelPolicy := .require
  diagnosticDump := true

/-- The one thing to warn of is that there are no tables to dump. -/
def boot : Session UefiFirmware Memory :=
  .start ⟨.fresh ⟨2, false⟩, .start system⟩ ⟨[⟨.ofNat 0x1000, .filled 2 0⟩]⟩ smallConfig

end Sample

theorem quiescence_sample : ∃ earlier size null,
    Sample.boot.run.2.world.firmware.system.history =
      earlier ++ [.system (.getMemoryMap size null), .system (.exitBootServices ⟨7⟩)] ∧
    earlier.any (!·.isService) = true := by
  have hcalls : Sample.boot.run.2.world.firmware.system.history.any (·.isExit) = true ∧
      Sample.boot.run.2.world.firmware.system.history.any (!·.isService) = true := by
    decide +kernel
  obtain ⟨-, -, made, hmade, hends⟩ := quiescence (Happens.run Sample.boot)
  have hmade : Sample.boot.run.2.world.firmware.system.history = made := hmade
  rw [hmade] at hcalls ⊢
  obtain ⟨c, hc, hexit⟩ := List.any_eq_true.mp hcalls.1
  obtain ⟨before, after, hsplit⟩ := List.append_of_mem hc
  obtain ⟨key, rfl⟩ := Call.exists_of_isExit hexit
  obtain ⟨⟨earlier, size, null, answer, rfl, hanswer, hsuccess, rfl⟩, -, -, hover⟩ :=
    hends before _ after hsplit
  obtain ⟨rfl, -⟩ := hover rfl
  refine ⟨earlier, size, null, ?_, ?_⟩
  · -- only the second answer is a success
    generalize earlier.countP (·.isMap) = n at hanswer
    change [_, _][n]? = some answer at hanswer
    rcases n with _ | _ | n <;> cases hanswer
    · cases hsuccess
    · rw [hsplit, List.append_assoc]
      rfl
  · rw [hsplit] at hcalls
    simpa [Call.isService] using hcalls.2

end BootLoader.Uefi
