import BootLoader.Proofs.Handoff.Exit
import BootLoader.Uefi.Firmware

/-! What the firmware is asked for, one demand after the other. Each leads to a call at most, or to
none where the services are not there, the console is off, or the pool is retired. -/

namespace BootLoader

def Event.isMap : Event → Bool
  | .memoryMap .. => true
  | _ => false

namespace Uefi

namespace Call

def isMap : Call → Bool
  | system (.getMemoryMap ..) => true
  | _ => false

def isExit : Call → Bool
  | system (.exitBootServices _) => true
  | _ => false

theorem exists_of_isExit {c : Call} (h : c.isExit = true) :
    ∃ key, c = .system (.exitBootServices key) := by
  rcases c with c | c
  · cases c <;> cases h
    exact ⟨_, rfl⟩
  · cases h

/-- What is neither text nor about the end of the services. -/
def isAside (c : Call) : Bool := c.isService && !c.isMap && !c.isExit

theorem of_isAside {c : Call} (h : c.isAside = true) :
    c.isService = true ∧ c.isMap = false ∧ c.isExit = false := by
  simpa [isAside, and_assoc] using h

end Call

theorem forall_of_countP_le {γ : Type} {P : γ → Bool} {l : List γ} (h : l.countP P ≤ 0) :
    ∀ c ∈ l, P c = false := fun c hc =>
  Bool.eq_false_iff.mpr (List.countP_eq_zero.mp (Nat.le_zero.mp h) c hc)

theorem countP_le_of_none {γ : Type} {P : γ → Bool} {l : List γ} (h : ∀ c ∈ l, P c = false) (n : Nat) :
    l.countP P ≤ n := by
  rw [List.countP_eq_zero.mpr fun c hc => Bool.eq_false_iff.mp (h c hc)]
  exact Nat.zero_le n

/-! ## The system table -/

namespace System

def history (s : System) : List Call := s.calls.reverse

/-- From one state to another these calls were made, and each took its answer from the list. -/
structure Leads (s s' : System) (made : List Call) : Prop where
  history : s'.history = s.history ++ made
  ready : s'.ready = s.ready
  maps : s'.maps = s.maps.drop (made.countP (·.isMap))
  exitAnswers : s'.exitAnswers = s.exitAnswers.drop (made.countP (·.isExit))

variable {s s' s'' : System} {made made' : List Call}

theorem Leads.refl (s : System) : Leads s s [] := ⟨(List.append_nil _).symm, rfl, rfl, rfl⟩

theorem Leads.trans (h : Leads s s' made) (h' : Leads s' s'' made') :
    Leads s s'' (made ++ made') where
  history := by rw [h'.history, h.history, List.append_assoc]
  ready := h'.ready.trans h.ready
  maps := by rw [h'.maps, h.maps, List.drop_drop, List.countP_append]
  exitAnswers := by rw [h'.exitAnswers, h.exitAnswers, List.drop_drop, List.countP_append]

theorem history_note (s : System) (c : Call) : (s.note c).history = s.history ++ [c] :=
  List.reverse_cons

theorem leads_note (s : System) {c : Call} (hmap : c.isMap = false) (hexit : c.isExit = false) :
    Leads s (s.note c) [c] :=
  ⟨s.history_note c, rfl, by simp [hmap, note], by simp [hexit, note]⟩

theorem leads_crashWith (s : System) (why : String) : Leads s (s.crashWith why) [] :=
  ⟨(List.append_nil _).symm, rfl, rfl, rfl⟩

theorem leads_print (s : System) (text : String) :
    ∃ made, Leads s (s.print text) made ∧ ∀ c ∈ made, c.isMap = false ∧ c.isExit = false := by
  unfold print
  split
  · exact ⟨[], .refl s, List.forall_mem_nil _⟩
  · split
    · exact ⟨[.system (.output (consoleText text))], s.leads_note rfl rfl,
        List.forall_mem_singleton.mpr ⟨rfl, rfl⟩⟩
    · exact ⟨[], s.leads_crashWith _, List.forall_mem_nil _⟩

theorem system_memoryMap (s : System) (buffer : Region) : (s.memoryMap buffer).2 = if s.ready then
    { s.note (.system (.getMemoryMap buffer.len buffer.isEmpty)) with maps := s.maps.drop 1 }
    else s := by
  unfold memoryMap
  split
  · dsimp only [note]
    cases hmaps : s.maps with
    | nil => rfl
    | cons answer rest =>
      dsimp only
      split
      · rfl
      · split <;> rfl
  · rfl

theorem leads_memoryMap (s : System) (buffer : Region) :
    Leads s (s.memoryMap buffer).2
      (if s.ready then [.system (.getMemoryMap buffer.len buffer.isEmpty)] else []) := by
  rw [system_memoryMap]
  split
  · exact ⟨s.history_note _, rfl, rfl, rfl⟩
  · exact .refl s

theorem system_exit (s : System) (key : MapKey) : (s.exit key).2 = if s.ready then
    { s.note (.system (.exitBootServices key)) with exitAnswers := s.exitAnswers.drop 1 } else s := by
  unfold exit
  split
  · cases s.exitAnswers <;> dsimp only [nextAnswer] <;> split <;> rfl
  · rfl

theorem leads_exit (s : System) (key : MapKey) :
    Leads s (s.exit key).2 (if s.ready then [.system (.exitBootServices key)] else []) := by
  rw [system_exit]
  split
  · exact ⟨s.history_note _, rfl, rfl, rfl⟩
  · exact .refl s

/-- A map that was written came with the key of the next answer in the list. -/
theorem filled_of_memoryMap {buffer : Region} {key : MapKey} {layout : MapLayout}
    (h : (s.memoryMap buffer).1 = .filled key layout) :
    s.ready = true ∧ ∃ answer, s.maps[0]? = some answer ∧ answer.status.isSuccess = true ∧
      answer.key = key := by
  unfold memoryMap at h
  split at h
  · rename_i hready
    dsimp only [note] at h
    cases hmaps : s.maps with
    | nil =>
      rw [hmaps] at h
      cases h
    | cons answer rest =>
      rw [hmaps] at h
      dsimp only at h
      split at h
      · cases h
      · split at h
        · rename_i hsuccess
          cases h
          exact ⟨hready, answer, rfl, hsuccess, rfl⟩
        · cases h
  · cases h

def Accepts (s : System) : Prop := ((nextAnswer s.exitAnswers).1.getD .success).isError = false

theorem Leads.accepts (h : Leads s s' made) (hnone : ∀ c ∈ made, c.isExit = false)
    (haccepts : s.Accepts) : s'.Accepts := by
  have hcount : made.countP (·.isExit) = 0 :=
    List.countP_eq_zero.mpr fun c hc => Bool.eq_false_iff.mp (hnone c hc)
  rw [Accepts, h.exitAnswers, hcount]
  exact haccepts

theorem exit_of_accepts (hready : s.ready = true) (h : s.Accepts) (key : MapKey) :
    (s.exit key).1 = .ok () := by
  unfold exit
  rw [if_pos hready]
  unfold Accepts at h
  cases hanswers : nextAnswer s.exitAnswers with
  | mk answer rest =>
    rw [hanswers] at h
    dsimp only at h ⊢
    rw [h]
    rfl

/-! ## Aside -/

/-- From one state to another nothing was printed, no map was asked for and no exit was tried. -/
def LeadsAside (s s' : System) : Prop := ∃ made, Leads s s' made ∧ ∀ c ∈ made, c.isAside = true

theorem Leads.aside (h : Leads s s' []) : LeadsAside s s' := ⟨[], h, List.forall_mem_nil _⟩

theorem LeadsAside.trans (h : LeadsAside s s') (h' : LeadsAside s' s'') : LeadsAside s s'' := by
  obtain ⟨made, hmade, haside⟩ := h
  obtain ⟨made', hmade', haside'⟩ := h'
  exact ⟨made ++ made', hmade.trans hmade', List.forall_mem_append.mpr ⟨haside, haside'⟩⟩

theorem aside_note (s : System) {c : Call} (hc : c.isAside = true) : LeadsAside s (s.note c) :=
  ⟨[c], s.leads_note (Call.of_isAside hc).2.1 (Call.of_isAside hc).2.2,
    List.forall_mem_singleton.mpr hc⟩

theorem aside_allocatePool (s : System) (size : Nat) : LeadsAside s (s.allocatePool size).2 := by
  have hnote (poolFailures granted crash) : LeadsAside s
      { s.note (.system (.allocatePool loaderData size)) with poolFailures, granted, crash } :=
    ⟨[_], ⟨s.history_note _, rfl, rfl, rfl⟩, List.forall_mem_singleton.mpr rfl⟩
  unfold allocatePool
  split
  · exact (s.leads_crashWith _).aside
  · dsimp only
    split
    · dsimp only
      split
      · exact hnote _ _ _
      · exact hnote _ _ _
    · split
      · exact hnote _ _ _
      · split <;> exact hnote _ _ _

theorem aside_freePool (s : System) (a : Address) : LeadsAside s (s.freePool a) := by
  unfold freePool
  split
  · exact (s.leads_crashWith _).aside
  · exact s.aside_note rfl

theorem aside_locateHart (answer : HartAnswer) (s : System) :
    LeadsAside s (s.locateHart answer).2 := by
  have hsearch : LeadsAside s (s.note (.hart (.locateHandles .riscvBoot))) := s.aside_note rfl
  unfold locateHart
  dsimp only
  split
  · exact hsearch
  · split
    · exact hsearch.trans (leads_crashWith _ _).aside
    · exact hsearch.trans (aside_freePool _ _)

theorem aside_askHart (answer : HartAnswer) (s : System) : LeadsAside s (s.askHart answer).2 := by
  have hopen : LeadsAside s (s.note (.system (.openProtocol .riscvBoot exclusive))) :=
    s.aside_note rfl
  unfold askHart
  dsimp only
  split
  · exact hopen
  · refine hopen.trans ((aside_note _ (c := .hart .getBootHartId) rfl).trans ?_)
    exact Leads.aside ⟨(List.append_nil _).symm, rfl, rfl, rfl⟩

theorem aside_bootHart (s : System) : LeadsAside s s.bootHart.2 := by
  unfold bootHart
  split
  · exact (s.leads_crashWith _).aside
  · have htake : LeadsAside s { s with harts := s.harts.tail } :=
      Leads.aside ⟨(List.append_nil _).symm, rfl, rfl, rfl⟩
    have hlocate := htake.trans (aside_locateHart (s.harts.head?.getD .absent) _)
    dsimp only
    split
    · rename_i h
      rwa [h] at hlocate
    · rename_i h
      rw [h] at hlocate
      exact hlocate.trans (aside_askHart _ _)

theorem aside_releaseHart (s : System) : LeadsAside s s.releaseHart := by
  unfold releaseHart
  split
  · refine (s.aside_note (c := .system (.closeProtocol .riscvBoot)) rfl).trans ?_
    exact Leads.aside ⟨(List.append_nil _).symm, rfl, rfl, rfl⟩
  · exact (Leads.refl s).aside

end System

/-! ## The pool of the loader -/

namespace Allocator

theorem aside_alloc (size align : Nat) (a : Allocator System) :
    System.LeadsAside a.services (a.alloc size align).2.services := by
  unfold alloc
  split
  · exact (System.Leads.refl _).aside
  · split
    · exact (System.Leads.refl _).aside
    · rename_i total _
      have hpool : System.LeadsAside a.services (Pool.allocate total a.services).2 :=
        a.services.aside_allocatePool total
      split
      · rename_i h
        rwa [h] at hpool
      · rename_i h
        rw [h] at hpool
        split <;> exact hpool

theorem aside_dealloc {block : Address} (a : Allocator System) {a' : Allocator System}
    (h : a.dealloc block = .ok a') : System.LeadsAside a.services a'.services := by
  unfold dealloc at h
  by_cases hidle : (block.isNull || a.retired) = true
  · rw [if_pos hidle] at h
    cases h
    exact (System.Leads.refl _).aside
  · rw [if_neg hidle] at h
    by_cases hshort : block.toNat < headerSize
    · rw [if_pos hshort] at h
      cases h
    · rw [if_neg hshort, Except.ok.injEq] at h
      subst h
      split
      · exact (System.Leads.refl _).aside
      · exact a.services.aside_freePool _

end Allocator

/-! ## The firmware as the loader sees it -/

namespace UefiFirmware

variable {f f' f'' : UefiFirmware} {heard heard' : List Event} {made made' : List Call}

/-- A console that is off stays off, and prints nothing. Maps are asked for and exits are tried only
where that is heard of. -/
structure Leads (f f' : UefiFirmware) (heard : List Event) (made : List Call) : Prop
    extends System.Leads f.system f'.system made where
  console : f.consoleOn = false → f'.consoleOn = false
  silent : f.consoleOn = false → ∀ c ∈ made, c.isService = true
  maps_le : made.countP (·.isMap) ≤ heard.countP (·.isMap)
  exits_le : made.countP (·.isExit) ≤ heard.countP (·.isExit)

theorem Leads.refl (f : UefiFirmware) : Leads f f [] [] where
  toLeads := .refl f.system
  console h := h
  silent _ := List.forall_mem_nil _
  maps_le := Nat.le_refl _
  exits_le := Nat.le_refl _

theorem Leads.trans (h : Leads f f' heard made) (h' : Leads f' f'' heard' made') :
    Leads f f'' (heard ++ heard') (made ++ made') where
  toLeads := h.toLeads.trans h'.toLeads
  console hf := h'.console (h.console hf)
  silent hf c hc := (List.mem_append.mp hc).elim (h.silent hf c) (h'.silent (h.console hf) c)
  maps_le := by
    rw [List.countP_append, List.countP_append]
    exact Nat.add_le_add h.maps_le h'.maps_le
  exits_le := by
    rw [List.countP_append, List.countP_append]
    exact Nat.add_le_add h.exits_le h'.exits_le

/-- Calls aside need not be heard of. -/
theorem leads_of_aside (f f' : UefiFirmware) (heard : List Event)
    (h : System.LeadsAside f.system f'.system) (hconsole : f'.consoleOn = f.consoleOn) :
    ∃ made, Leads f f' heard made := by
  obtain ⟨made, hmade, haside⟩ := h
  have hkind : ∀ c ∈ made, c.isService = true ∧ c.isMap = false ∧ c.isExit = false :=
    fun c hc => Call.of_isAside (haside c hc)
  exact ⟨made, {
    toLeads := hmade
    console := hconsole.trans
    silent := fun _ c hc => (hkind c hc).1
    maps_le := countP_le_of_none (fun c hc => (hkind c hc).2.1) _
    exits_le := countP_le_of_none (fun c hc => (hkind c hc).2.2) _ }⟩

def printAll (lines : List Line) (f : UefiFirmware) : UefiFirmware :=
  lines.foldl (fun f line => f.print line) f

/-- The question for the boot hart, with what is printed before the firmware closes what it opened.
-/
def askHart (said : List Line) (f : UefiFirmware) : UefiFirmware :=
  Firmware.releaseHart (f.bootHart.2.printAll said)

theorem leads_print (line : Line) (f : UefiFirmware) : ∃ made, Leads f (f.print line) [] made := by
  unfold print
  split
  · rename_i hconsole
    have hon : f.consoleOn ≠ false := by rw [hconsole]; decide
    obtain ⟨made, hmade, hprinted⟩ := f.system.leads_print line.render
    exact ⟨made, hmade, fun h => absurd h hon, fun h => absurd h hon,
      countP_le_of_none (fun c hc => (hprinted c hc).1) _,
      countP_le_of_none (fun c hc => (hprinted c hc).2) _⟩
  · exact ⟨[], .refl f⟩

theorem leads_printAll (lines : List Line) (f : UefiFirmware) :
    ∃ made, Leads f (f.printAll lines) [] made := by
  induction lines generalizing f with
  | nil => exact ⟨[], .refl f⟩
  | cons line lines ih =>
    obtain ⟨made, hmade⟩ := f.leads_print line
    obtain ⟨made', hmade'⟩ := ih (f.print line)
    exact ⟨made ++ made', hmade.trans hmade'⟩

theorem leads_bootHart (f : UefiFirmware) (heard : List Event) :
    ∃ made, Leads f f.bootHart.2 heard made := by
  suffices h : System.LeadsAside f.system f.bootHart.2.system ∧
      f.bootHart.2.consoleOn = f.consoleOn from leads_of_aside f f.bootHart.2 heard h.1 h.2
  have hask := f.system.aside_bootHart
  unfold bootHart
  split
  · cases hanswer : f.system.bootHart with
    | mk answer s =>
      rw [hanswer] at hask
      cases answer <;> exact ⟨hask, rfl⟩
  · exact ⟨(System.Leads.refl _).aside, rfl⟩

theorem leads_askHart (said : List Line) (f : UefiFirmware) (heard : List Event) :
    ∃ made, Leads f (f.askHart said) heard made := by
  obtain ⟨asked, hasked⟩ := f.leads_bootHart heard
  obtain ⟨printed, hprinted⟩ := f.bootHart.2.leads_printAll said
  obtain ⟨closed, hclosed⟩ :=
    leads_of_aside (f.bootHart.2.printAll said) (f.askHart said) [] (System.aside_releaseHart _) rfl
  have hall := hasked.trans (hprinted.trans hclosed)
  rw [List.append_nil, List.append_nil] at hall
  exact ⟨_, hall⟩

theorem leads_memoryMap (buffer : Region) (f : UefiFirmware) :
    Leads f (f.memoryMap buffer).2 [.memoryMap buffer (f.memoryMap buffer).1]
      (if f.system.ready then [.system (.getMemoryMap buffer.len buffer.isEmpty)] else []) where
  toLeads := f.system.leads_memoryMap buffer
  console h := h
  silent _ := by split <;> simp [Call.isService]
  maps_le := by
    split
    · exact Nat.le_refl 1
    · exact Nat.zero_le 1
  exits_le := by split <;> exact Nat.le_refl 0

theorem leads_quiesce (f : UefiFirmware) : Leads f (Firmware.quiesce f) [.quiesce] [] where
  toLeads := .refl f.system
  console _ := rfl
  silent _ := List.forall_mem_nil _
  maps_le := Nat.zero_le _
  exits_le := Nat.zero_le _

theorem system_of_exit (key : MapKey) (f : UefiFirmware) :
    (f.exit key).2.system = (f.system.exit key).2 := by
  unfold exit
  dsimp only
  split <;> rfl

theorem consoleOn_of_exit (key : MapKey) (f : UefiFirmware) :
    (f.exit key).2.consoleOn = f.consoleOn := by
  unfold exit
  dsimp only
  split <;> rfl

theorem leads_exit (key : MapKey) (f : UefiFirmware) :
    Leads f (f.exit key).2 [.exit key (f.exit key).1]
      (if f.system.ready then [.system (.exitBootServices key)] else []) where
  toLeads := by
    rw [system_of_exit]
    exact f.system.leads_exit key
  console h := (f.consoleOn_of_exit key).trans h
  silent _ := by split <;> simp [Call.isService]
  maps_le := by split <;> exact Nat.le_refl 0
  exits_le := by
    split
    · exact Nat.le_refl 1
    · exact Nat.zero_le 1

theorem leads_allocate (size : Nat) (f : UefiFirmware) (heard : List Event) :
    ∃ made, Leads f (f.allocate size).2 heard made :=
  leads_of_aside f (f.allocate size).2 heard (f.system.aside_allocatePool size) rfl

theorem leads_alloc (size align : Nat) (f : UefiFirmware) :
    ∃ made, Leads f (f.alloc size align).2 [] made := by
  have hpool : System.LeadsAside f.system (f.pool.alloc size align).2.services :=
    f.pool.aside_alloc size align
  unfold alloc
  dsimp only
  split
  · exact leads_of_aside f _ [] hpool rfl
  · exact leads_of_aside f _ [] (hpool.trans (System.leads_crashWith _ _).aside) rfl

theorem leads_dealloc (block : Address) (f : UefiFirmware) :
    ∃ made, Leads f (f.dealloc block) [] made := by
  unfold dealloc
  split
  · rename_i hpool
    exact leads_of_aside f _ [] (f.pool.aside_dealloc hpool) rfl
  · exact leads_of_aside f _ [] (System.leads_crashWith _ _).aside rfl

/-! ## When it is over -/

structure Gone (f : UefiFirmware) : Prop where
  console : f.consoleOn = false
  pool : f.pool.retired = true

theorem gone_of_exit (hoff : f.consoleOn = false) (hready : f.system.ready = true)
    (h : f.system.Accepts) (key : MapKey) : (f.exit key).2.Gone := by
  refine ⟨(f.consoleOn_of_exit key).trans hoff, ?_⟩
  have hok := System.exit_of_accepts hready h key
  unfold exit
  dsimp only
  rw [hok]

theorem print_of_off (h : f.consoleOn = false) (line : Line) : f.print line = f := by
  rw [print, h]
  rfl

theorem Gone.alloc (h : Gone f) (size align : Nat) : f.alloc size align = (.zero, f) := by
  have hpool : f.pool.alloc size align = (.ok .zero, f.pool) := by
    rw [Allocator.alloc, h.pool]
    rfl
  rw [UefiFirmware.alloc, hpool]

theorem Gone.dealloc (h : Gone f) (block : Address) : f.dealloc block = f := by
  have hpool : f.pool.dealloc block = .ok f.pool := by
    rw [Allocator.dealloc, h.pool, Bool.or_true]
    rfl
  rw [UefiFirmware.dealloc, hpool]

end UefiFirmware

/-! ## Demand after demand -/

inductive Demand where
  | print (line : Line)
  /-- which hart it runs on, and what is printed before what this opened is closed -/
  | bootHart (said : List Line)
  | memoryMap (buffer : Region)
  | allocate (size : Nat)
  | quiesce
  | exit (key : MapKey)
  /-- memory for the loader itself -/
  | alloc (size align : Nat)
  | dealloc (block : Address)

namespace Demand

/-- Whether it comes from the boot, and not from another part of the loader. -/
def ofBoot : Demand → Bool
  | alloc .. | dealloc _ => false
  | _ => true

def serve (f : UefiFirmware) : Demand → UefiFirmware
  | print line => Console.print line f
  | bootHart said => f.askHart said
  | memoryMap buffer => (Firmware.memoryMap buffer f).2
  | allocate size => (Firmware.allocate size f).2
  | quiesce => Firmware.quiesce f
  | exit key => (Firmware.exit key f).2
  | alloc size align => (f.alloc size align).2
  | dealloc block => f.dealloc block

def event? (f : UefiFirmware) : Demand → Option Event
  | bootHart _ => some (.bootHart (Firmware.bootHart f).1.hart)
  | memoryMap buffer => some (.memoryMap buffer (Firmware.memoryMap buffer f).1)
  | allocate size => some (.allocate size (Firmware.allocate size f).1)
  | quiesce => some .quiesce
  | exit key => some (.exit key (Firmware.exit key f).1)
  | print _ | alloc .. | dealloc _ => none

def serveAll (f : UefiFirmware) (ds : List Demand) : UefiFirmware := ds.foldl serve f

def events : UefiFirmware → List Demand → List Event
  | _, [] => []
  | f, d :: ds => (event? f d).toList ++ events (serve f d) ds

variable {f : UefiFirmware} {d : Demand} {ds : List Demand}

theorem serveAll_append (f : UefiFirmware) (ds ds' : List Demand) :
    serveAll f (ds ++ ds') = serveAll (serveAll f ds) ds' := List.foldl_append

theorem events_append (f : UefiFirmware) (ds ds' : List Demand) :
    events f (ds ++ ds') = events f ds ++ events (serveAll f ds) ds' := by
  induction ds generalizing f with
  | nil => rfl
  | cons d ds ih =>
    rw [List.cons_append, events, events, ih, List.append_assoc]
    rfl

theorem leads_serve (f : UefiFirmware) (d : Demand) :
    ∃ made, f.Leads (serve f d) (event? f d).toList made := by
  cases d with
  | print line => exact f.leads_print line
  | bootHart said => exact f.leads_askHart said _
  | memoryMap buffer => exact ⟨_, f.leads_memoryMap buffer⟩
  | allocate size => exact f.leads_allocate size _
  | quiesce => exact ⟨[], f.leads_quiesce⟩
  | exit key => exact ⟨_, f.leads_exit key⟩
  | alloc size align => exact f.leads_alloc size align
  | dealloc block => exact f.leads_dealloc block

theorem leads_serveAll (f : UefiFirmware) (ds : List Demand) :
    ∃ made, f.Leads (serveAll f ds) (events f ds) made := by
  induction ds generalizing f with
  | nil => exact ⟨[], .refl f⟩
  | cons d ds ih =>
    obtain ⟨made, hmade⟩ := leads_serve f d
    obtain ⟨made', hmade'⟩ := ih (serve f d)
    exact ⟨made ++ made', hmade.trans hmade'⟩

/-- A firmware that was quieted prints nothing more, whatever it is asked for. -/
theorem silent_after_quiesce (f : UefiFirmware) (before after : List Demand) :
    ∃ since, (serveAll f (before ++ .quiesce :: after)).system.history =
      (serveAll f before).system.history ++ since ∧ ∀ c ∈ since, c.isService = true := by
  rw [serveAll_append]
  obtain ⟨since, hsince⟩ := leads_serveAll (Firmware.quiesce (serveAll f before)) after
  exact ⟨since, hsince.history, hsince.silent rfl⟩

/-- What is noted first is noted of a demand, and of none before it. -/
theorem exists_of_events_cons {e : Event} {es : List Event} (h : events f ds = e :: es) :
    ∃ front d back, ds = front ++ d :: back ∧ events f front = [] ∧
      event? (serveAll f front) d = some e ∧ events (serve (serveAll f front) d) back = es := by
  induction ds generalizing f with
  | nil => cases h
  | cons d ds ih =>
    rw [events] at h
    cases hd : event? f d with
    | none =>
      rw [hd] at h
      obtain ⟨front, d', back, rfl, hfront, hd', hback⟩ := ih h
      refine ⟨d :: front, d', back, rfl, ?_, hd', hback⟩
      rw [events, hd, hfront]
      rfl
    | some e' =>
      rw [hd] at h
      cases h
      exact ⟨[], d, ds, rfl, rfl, hd, rfl⟩

theorem serveAll_of_idle (h : ∀ d ∈ ds, event? f d = none → serve f d = f) (hevents : events f ds = []) :
    serveAll f ds = f := by
  induction ds with
  | nil => rfl
  | cons d ds ih =>
    rw [List.forall_mem_cons] at h
    rw [events, List.append_eq_nil_iff, Option.toList_eq_nil_iff] at hevents
    have hsame := h.1 hevents.1
    rw [hsame] at hevents
    change serveAll (serve f d) ds = f
    rw [hsame]
    exact ih h.2 hevents.2

/-- What is not noted changes nothing when it is over. -/
theorem serveAll_of_gone (h : f.Gone) (hevents : events f ds = []) : serveAll f ds = f := by
  refine serveAll_of_idle (fun d _ hd => ?_) hevents
  cases d with
  | print line => exact UefiFirmware.print_of_off h.console line
  | alloc size align => exact congrArg Prod.snd (h.alloc size align)
  | dealloc block => exact h.dealloc block
  | bootHart _ | memoryMap _ | allocate _ | quiesce | exit _ => cases hd

/-- What a boot says to a console that is off changes nothing. -/
theorem serveAll_of_off (hoff : f.consoleOn = false) (hds : ∀ d ∈ ds, d.ofBoot = true)
    (hevents : events f ds = []) : serveAll f ds = f := by
  refine serveAll_of_idle (fun d hmem hd => ?_) hevents
  have hboot := hds d hmem
  cases d with
  | print line => exact UefiFirmware.print_of_off hoff line
  | alloc _ _ | dealloc _ => cases hboot
  | bootHart _ | memoryMap _ | allocate _ | quiesce | exit _ => cases hd

/-- With the console off, what is noted first is the first to change anything. -/
theorem exists_of_off {e : Event} {es : List Event} (hoff : f.consoleOn = false)
    (hds : ∀ d ∈ ds, d.ofBoot = true) (h : events f ds = e :: es) :
    ∃ d back, event? f d = some e ∧ events (serve f d) back = es ∧
      serveAll f ds = serveAll (serve f d) back ∧ ∀ d ∈ back, d.ofBoot = true := by
  obtain ⟨front, d, back, rfl, hfront, hd, hback⟩ := exists_of_events_cons h
  rw [List.forall_mem_append, List.forall_mem_cons] at hds
  have hsame : serveAll f front = f := serveAll_of_off hoff hds.1 hfront
  rw [hsame] at hd hback
  refine ⟨d, back, hd, hback, ?_, hds.2.2⟩
  rw [serveAll_append, hsame]
  rfl

/-- When the services are ended nothing is printed between the calls, since the console is off. -/
theorem serveAll_of_exit {region : Region} {answer : MapQuery} {key : MapKey}
    {left : Except Status Unit} (hds : ∀ d ∈ ds, d.ofBoot = true)
    (h : events f ds = [.quiesce, .memoryMap region answer, .exit key left]) :
    ∃ front, events f front = [] ∧
      ((Firmware.quiesce (serveAll f front)).memoryMap region).1 = answer ∧
      serveAll f ds = (((Firmware.quiesce (serveAll f front)).memoryMap region).2.exit key).2 := by
  obtain ⟨front, d, ds₁, rfl, hfront, hd, h₁⟩ := exists_of_events_cons h
  rw [List.forall_mem_append, List.forall_mem_cons] at hds
  cases d <;> cases hd
  obtain ⟨d, ds₂, hd, h₂, hserve₁, hds₂⟩ := exists_of_off rfl hds.2.2 h₁
  cases d <;> cases hd
  obtain ⟨d, ds₃, hd, h₃, hserve₂, hds₃⟩ := exists_of_off rfl hds₂ h₂
  cases d <;> cases hd
  refine ⟨front, hfront, rfl, ?_⟩
  have hoff : (serve (serve (serve (serveAll f front) .quiesce) (.memoryMap region))
      (.exit key)).consoleOn = false := UefiFirmware.consoleOn_of_exit key _
  rw [serveAll_append]
  exact (hserve₁.trans hserve₂).trans (serveAll_of_off hoff hds₃ h₃)

/-- The services are ended with the key of the next map in the list, right after it was asked for.
If the exit is accepted, it is over. -/
theorem calls_of_exit {region : Region} {layout : MapLayout} {key : MapKey}
    {left : Except Status Unit} (hds : ∀ d ∈ ds, d.ofBoot = true) (h : events f ds =
      [.quiesce, .memoryMap region (.filled key layout), .exit key left]) :
    ∃ said answer, f.Leads (serveAll f ds) (events f ds)
        (said ++ [.system (.getMemoryMap region.len region.isEmpty), .system (.exitBootServices key)]) ∧
      (∀ c ∈ said, c.isExit = false ∧ c.isMap = false) ∧
      f.system.maps[0]? = some answer ∧ answer.status.isSuccess = true ∧ answer.key = key ∧
      (serveAll f ds).consoleOn = false ∧ (f.system.Accepts → (serveAll f ds).Gone) := by
  obtain ⟨front, hfront, hanswer, hserve⟩ := serveAll_of_exit hds h
  obtain ⟨said, hsaid⟩ := leads_serveAll f front
  rw [hfront] at hsaid
  -- the console is off from here on
  let g : UefiFirmware := Firmware.quiesce (serveAll f front)
  obtain ⟨hready, answer, hget, hsuccess, rfl⟩ := System.filled_of_memoryMap (s := g.system) hanswer
  have hmap := g.leads_memoryMap region
  rw [if_pos hready] at hmap
  have hexit := (g.memoryMap region).2.leads_exit answer.key
  rw [if_pos (hmap.ready.trans hready)] at hexit
  have hbefore := hsaid.trans ((UefiFirmware.leads_quiesce _).trans hmap)
  obtain ⟨made, hmade⟩ := leads_serveAll f ds
  have hcalls : made = said ++ [.system (.getMemoryMap region.len region.isEmpty)] ++
      [.system (.exitBootServices answer.key)] := by
    refine List.append_cancel_left (hmade.history.symm.trans ?_)
    rw [hserve]
    exact (hbefore.trans hexit).history
  have hsaidExit := forall_of_countP_le hsaid.exits_le
  refine ⟨said, answer, ?_, fun c hc => ⟨hsaidExit c hc, forall_of_countP_le hsaid.maps_le c hc⟩, ?_,
    hsuccess, rfl, ?_, fun haccepts => ?_⟩
  · rwa [hcalls, List.append_assoc] at hmade
  · have hmaps := hsaid.maps
    rw [List.countP_eq_zero.mpr fun c hc => Bool.eq_false_iff.mp
      (forall_of_countP_le hsaid.maps_le c hc)] at hmaps
    rw [← hget]
    exact congrArg (·[0]?) hmaps.symm
  · rw [hserve]
    exact UefiFirmware.consoleOn_of_exit answer.key _
  · rw [hserve]
    refine UefiFirmware.gone_of_exit rfl (hmap.ready.trans hready) ?_ answer.key
    refine hbefore.accepts (fun c hc => ?_) haccepts
    rw [List.nil_append, List.mem_append, List.mem_singleton] at hc
    rcases hc with hc | rfl
    · exact hsaidExit c hc
    · rfl

end Demand

end Uefi

end BootLoader
