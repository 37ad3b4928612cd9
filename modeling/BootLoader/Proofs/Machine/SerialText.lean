import BootLoader.Machine.Hooks
import BootLoader.Proofs.Computation

/-! Texts on a serial line. A text goes over the line byte by byte, with a carriage return before
every line feed, up to the first byte that is refused. What a line with limited room has received of
several texts is the beginning of their bytes one after the other, so it does not matter where the
texts are divided. -/

namespace BootLoader

/-- The bytes of a text on the line: a carriage return goes before every line feed. -/
def onLine (s : String) : List UInt8 :=
  s.toUTF8.data.toList.flatMap fun b => if b = 10 then [13, 10] else [b]

theorem onLine_append (s t : String) : onLine (s ++ t) = onLine s ++ onLine t := by
  simp [onLine, String.toUTF8, String.toByteArray_append]

theorem onLine_join (texts : List String) : onLine (String.join texts) = texts.flatMap onLine := by
  induction texts with
  | nil => rfl
  | cons s texts ih => rw [String.join_cons, onLine_append, ih, List.flatMap_cons]

theorem onLine_eq_nil {s : String} : onLine s = [] ↔ s = "" := by
  constructor
  · intro h
    have hbytes : s.toByteArray.data.toList = [] := by
      rw [onLine, List.flatMap_eq_nil_iff] at h
      rw [List.eq_nil_iff_forall_not_mem]
      intro b hb
      have hb' := h b hb
      split at hb' <;> cases hb'
    apply String.toByteArray_inj.mp
    apply ByteArray.ext
    exact Array.toList_inj.mp hbytes
  · rintro rfl
    rfl

namespace Uart

theorem received_put (u : Uart) (b : UInt8) :
    (u.put b).2.received = u.received ++ if (u.put b).1 then [b] else [] := by
  obtain ⟨room, refusals, taken, waiting⟩ := u
  unfold put
  split
  · simp [received]
  · rcases room with _ | _ | n <;> simp [received, take]

theorem put_of_room {u : Uart} {n : Nat} (hroom : u.room = some n) (hrefusals : u.refusals = [])
    (b : UInt8) : (u.put b).1 = decide (0 < n) ∧ (u.put b).2.room = some (n - 1) ∧
      (u.put b).2.refusals = [] := by
  obtain ⟨room, refusals, taken, waiting⟩ := u
  dsimp only at hroom hrefusals
  subst hroom hrefusals
  cases n <;> simp [put, take]

end Uart

/-- A byte that is taken is received, whatever stands behind the line. -/
theorem Platform.received_put (target : Option Arch) (p : Platform) (u : Uart) (b : UInt8) :
    (p.put target u b).2.received =
      u.received ++ if (p.put target u b).1 then [b] else [] := by
  unfold put
  split
  · split <;> simp [Uart.received, Uart.take]
  · exact u.received_put b

namespace Machine

variable {m : Machine} {p : Platform}

/-! ## Byte by byte -/

def put (m : Machine) (p : Platform) (b : UInt8) : Bool × Machine :=
  let r := (Host.putChar p b : Host Unit PlatformError Unit) ⟨m, ()⟩
  ((failure? r).isNone, (final r).machine)

/-- Bytes to the line of a platform, up to the first that is refused. -/
def putAll (p : Platform) : List UInt8 → Machine → Bool × Machine
  | [], m => (true, m)
  | b :: bs, m =>
    match m.put p b with
    | (true, m) => putAll p bs m
    | (false, m) => (false, m)

def received (m : Machine) (p : Platform) : List UInt8 := (m.device p).uart.received

theorem put_eq (m : Machine) (p : Platform) (b : UInt8) :
    m.put p b = ((p.put m.target (m.device p).uart b).1,
      m.setDevice p { m.device p with uart := (p.put m.target (m.device p).uart b).2 }) := by
  unfold put Host.putChar
  rw [get_bind]
  dsimp only
  rcases p.put m.target (m.device p).uart b with ⟨_ | _, u⟩ <;> rfl

theorem put_scripted (h : p.wiring = .scripted) (m : Machine) (b : UInt8) :
    m.put p b = (((m.device p).uart.put b).1,
      m.setDevice p { m.device p with uart := ((m.device p).uart.put b).2 }) := by
  rw [put_eq, Platform.put, h]

/-- What the loop over a text leaves is what its bytes leave when they are put one by one, each on
the line that the bytes before it have left. -/
theorem putAll_write (bs : List UInt8) (m : Machine) :
    m.putAll p (bs.flatMap fun b => if b = 10 then [13, 10] else [b]) =
      ((Uart.write (p.put m.target) bs (m.device p).uart).1,
        m.setDevice p
          { m.device p with uart := (Uart.write (p.put m.target) bs (m.device p).uart).2 }) := by
  induction bs generalizing m with
  | nil => exact Prod.ext rfl (setDevice_device m p).symm
  | cons b bs ih =>
    have hrest (u : Uart) := ih (m.setDevice p { m.device p with uart := u })
    simp only [target_setDevice, device_setDevice, setDevice_setDevice] at hrest
    rw [List.flatMap_cons]
    by_cases hb : b = 10
    · subst hb
      simp only [Uart.write, ↓reduceIte, List.cons_append, List.nil_append, putAll, put_eq]
      rcases p.put m.target (m.device p).uart 13 with ⟨_ | _, u⟩
      · rfl
      · simp only [target_setDevice, device_setDevice, setDevice_setDevice]
        rcases p.put m.target u 10 with ⟨_ | _, v⟩
        · rfl
        · exact hrest v
    · simp only [Uart.write, hb, ↓reduceIte, List.cons_append, List.nil_append, putAll, put_eq]
      rcases p.put m.target (m.device p).uart b with ⟨_ | _, u⟩
      · rfl
      · exact hrest u

/-- Writing a text puts its bytes one by one. -/
theorem writeText_eq (m : Machine) (p : Platform) (s : String) :
    m.writeText p s = m.putAll p (onLine s) := (putAll_write s.toUTF8.data.toList m).symm

/-! ## Limited room -/

/-- Of the bytes that are put on the line from here on, whichever they are, it takes the first `n`
and refuses all others. -/
def Accepts (m : Machine) (p : Platform) (n : Nat) : Prop :=
  ∀ (bs : List UInt8) (b : UInt8),
    ((bs.foldl (fun m b => (m.put p b).2) m).put p b).1 = decide (bs.length < n)

theorem received_put (m : Machine) (p : Platform) (b : UInt8) :
    (m.put p b).2.received p = m.received p ++ if (m.put p b).1 then [b] else [] := by
  simp [put_eq, received, Platform.received_put]

theorem Accepts.put {n : Nat} (h : m.Accepts p n) (b : UInt8) :
    (m.put p b).1 = decide (0 < n) ∧ (m.put p b).2.Accepts p (n - 1) := by
  refine ⟨h [] b, fun bs b' => ?_⟩
  have hlater := h (b :: bs) b'
  rw [List.foldl_cons, List.length_cons] at hlater
  rw [hlater, decide_eq_decide]
  omega

/-- A scripted line takes what it has room for. -/
theorem accepts_of_room (h : p.wiring = .scripted) {n : Nat} (hroom : (m.device p).uart.room = some n)
    (hrefusals : (m.device p).uart.refusals = []) : m.Accepts p n := by
  intro bs b
  induction bs generalizing m n with
  | nil =>
    rw [List.foldl_nil, put_scripted h]
    exact (Uart.put_of_room hroom hrefusals b).1
  | cons b' bs ih =>
    obtain ⟨-, hroom', hrefusals'⟩ := Uart.put_of_room hroom hrefusals b'
    have hput : ((m.put p b').2.device p).uart = ((m.device p).uart.put b').2 := by simp [put_scripted h]
    rw [← hput] at hroom' hrefusals'
    rw [List.foldl_cons, ih hroom' hrefusals', List.length_cons, decide_eq_decide]
    omega

/-- A string of bytes is taken as far as there is room. -/
theorem Accepts.putAll {n : Nat} (h : m.Accepts p n) (bs : List UInt8) :
    (m.putAll p bs).1 = decide (bs.length ≤ n) ∧
      (m.putAll p bs).2.received p = m.received p ++ bs.take n ∧
      (m.putAll p bs).2.Accepts p (n - bs.length) := by
  induction bs generalizing m n with
  | nil => simpa [Machine.putAll] using h
  | cons b bs ih =>
    obtain ⟨htaken, hrest⟩ := h.put b
    have hreceived := m.received_put p b
    rw [Machine.putAll]
    generalize m.put p b = r at htaken hrest hreceived ⊢
    obtain ⟨taken, m'⟩ := r
    dsimp only at htaken hrest hreceived
    cases n with
    | zero =>
      subst htaken
      exact ⟨by simp, by simpa using hreceived, by simpa using hrest⟩
    | succ n =>
      subst htaken
      obtain ⟨hdone, hall, hroom⟩ := ih hrest
      refine ⟨?_, ?_, ?_⟩
      · simpa using hdone
      · simpa [hreceived] using hall
      · simpa using hroom

/-! ## Text by text -/

/-- Texts to the line of a platform, one after the other, and of each whether all of it was taken.
-/
def writeEach (p : Platform) : List String → Machine → List Bool × Machine
  | [], m => ([], m)
  | s :: texts, m =>
    let (done, m) := m.writeText p s
    let (rest, m) := writeEach p texts m
    (done :: rest, m)

theorem writeEach_cons (m : Machine) (s : String) (texts : List String) :
    m.writeEach p (s :: texts) = ((m.writeText p s).1 :: ((m.writeText p s).2.writeEach p texts).1,
      ((m.writeText p s).2.writeEach p texts).2) := rfl

theorem length_writeEach (m : Machine) (texts : List String) :
    (m.writeEach p texts).1.length = texts.length := by
  induction texts generalizing m with
  | nil => rfl
  | cons s texts ih => rw [writeEach_cons, List.length_cons, List.length_cons, ih]

theorem received_writeEach {n : Nat} (h : m.Accepts p n) (texts : List String) :
    (m.writeEach p texts).2.received p = m.received p ++ (texts.flatMap onLine).take n := by
  induction texts generalizing m n with
  | nil => simp [writeEach]
  | cons s texts ih =>
    obtain ⟨-, hreceived, hrest⟩ := h.putAll (onLine s)
    rw [← writeText_eq] at hreceived hrest
    rw [writeEach_cons, ih hrest, hreceived, List.flatMap_cons, List.take_append, List.append_assoc]

/-- A text that has bytes needs room for them behind all texts before it. -/
theorem length_pos_of_getElem? {texts : List String} {i : Nat} {s : String} (hi : texts[i]? = some s)
    (hs : s ≠ "") : 0 < ((texts.take (i + 1)).flatMap onLine).length := by
  rw [List.length_pos_iff]
  intro hnil
  rw [List.flatMap_eq_nil_iff] at hnil
  have hmem : s ∈ texts.take (i + 1) := by
    rw [List.mem_iff_getElem?]
    exact ⟨i, by rw [List.getElem?_take_of_lt (Nat.lt_succ_self i), hi]⟩
  exact hs (onLine_eq_nil.mp (hnil s hmem))

theorem taken_writeEach {n : Nat} (h : m.Accepts p n) {texts : List String} {i : Nat} {s : String}
    (hi : texts[i]? = some s) :
    (m.writeEach p texts).1[i]? = some true ↔
      s = "" ∨ ((texts.take (i + 1)).flatMap onLine).length ≤ n := by
  induction texts generalizing m n i with
  | nil => cases hi
  | cons t texts ih =>
    obtain ⟨hdone, -, hrest⟩ := h.putAll (onLine t)
    rw [← writeText_eq] at hdone hrest
    rw [writeEach_cons]
    cases i with
    | zero =>
      cases hi
      have hempty : s = "" → (onLine s).length ≤ n := by
        rintro rfl
        exact Nat.zero_le n
      simpa [hdone] using hempty
    | succ i =>
      rw [List.getElem?_cons_succ] at hi ⊢
      rw [ih hrest hi, List.take_succ_cons, List.flatMap_cons, List.length_append]
      by_cases hs : s = ""
      · simp [hs]
      · have hroom := length_pos_of_getElem? hi hs
        simp only [hs, false_or]
        omega

/-- A line that takes `n` more bytes receives the first `n` of the texts' bytes, in order; a text is
taken to its end if there was room up to there, or if it is empty. Where the texts are divided does
not matter to what is received. -/
theorem received_prefix {n : Nat} (h : m.Accepts p n) (texts : List String) :
    (m.writeEach p texts).2.received p = m.received p ++ (texts.flatMap onLine).take n ∧
      (m.writeEach p texts).1.length = texts.length ∧
      (∀ i s, texts[i]? = some s → ((m.writeEach p texts).1[i]? = some true ↔
        s = "" ∨ ((texts.take (i + 1)).flatMap onLine).length ≤ n)) ∧
      ∀ texts', String.join texts' = String.join texts →
        (m.writeEach p texts').2.received p = (m.writeEach p texts).2.received p := by
  refine ⟨received_writeEach h texts, length_writeEach m texts, fun i s hi => taken_writeEach h hi,
    fun texts' hjoin => ?_⟩
  rw [received_writeEach h, received_writeEach h, ← onLine_join, hjoin, onLine_join]

end Machine

namespace Sample

def recorder : Platform := { Platform.builtIn .aarch64 with id := 7, wiring := .scripted }

def shortLine : Machine :=
  (Machine.fresh ⟨0, false⟩).setDevice recorder
    { Device.fresh with uart := { Uart.endless with room := some 4 } }

theorem accepts_shortLine : shortLine.Accepts recorder 4 :=
  Machine.accepts_of_room rfl (by decide) (by decide)

end Sample

/-- The room ends between a carriage return and its line feed. -/
theorem Machine.received_prefix_sample :
    let r := Sample.shortLine.writeEach Sample.recorder ["a\n", "", "\nb", "c"]
    r.2.received Sample.recorder = [97, 13, 10, 13] ∧ r.1[0]? = some true ∧ r.1[2]? ≠ some true ∧
      (Sample.shortLine.writeEach Sample.recorder ["a\n\n", "bc"]).2.received Sample.recorder =
        r.2.received Sample.recorder := by
  obtain ⟨hreceived, -, hdone, hdivided⟩ :=
    Machine.received_prefix Sample.accepts_shortLine ["a\n", "", "\nb", "c"]
  refine ⟨?_, ?_, ?_, ?_⟩
  · rw [hreceived]
    decide
  · exact (hdone 0 "a\n" rfl).mpr (by decide)
  · rw [Ne, hdone 2 "\nb" rfl]
    decide
  · exact hdivided ["a\n\n", "bc"] (by decide)

end BootLoader
