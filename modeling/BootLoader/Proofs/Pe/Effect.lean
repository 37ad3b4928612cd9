import BootLoader.Pe.Load
import BootLoader.Proofs.Memory.Task
import BootLoader.Proofs.Pe.Headers
import Mathlib.Algebra.Ring.Nat

/-! What a load does to the memory. Sections go in one after the other, so a byte that several
sections cover is that of the last one in the table; a load that fails leaves what the sections
before the failure put there. No byte outside the image's footprint is touched. -/

namespace BootLoader

theorem Address.plus?_eq_some {a b : Address} {n : Nat} (h : a.plus? n = some b) :
    b.toNat = a.toNat + n := by
  unfold plus? at h
  split at h
  · rename_i hlt
    cases h
    exact UInt64.toNat_ofNat_of_lt' hlt
  · cases h

theorem Address.plus?_eq_none {a : Address} {n : Nat} (h : a.plus? n = none) :
    space ≤ a.toNat + n := by
  unfold plus? at h
  split at h
  · cases h
  · rename_i hlt
    exact Nat.not_lt.mp hlt

namespace Pe

variable {image : Image} {bs : Bytes} {base : Address} {s : Section} {ss : List Section} {x : Nat}

/-- The section's raw data goes over the address when the image is put at `base`. -/
def Section.covers (base : Address) (x : Nat) (s : Section) : Bool :=
  base.toNat + s.header.virtualAddress.toNat ≤ x &&
    x < base.toNat + s.header.virtualAddress.toNat + s.header.rawSize.toNat

/-- Where in the file the byte for a covered address is. -/
def Section.sourceOf (base : Address) (x : Nat) (s : Section) : Nat :=
  s.header.rawPointer.toNat + (x - (base.toNat + s.header.virtualAddress.toNat))

def Section.Fits (bs : Bytes) (s : Section) : Prop :=
  s.header.rawPointer.toNat + s.header.rawSize.toNat ≤ bs.size

def lastCovering? (base : Address) (ss : List Section) (x : Nat) : Option Section :=
  ss.reverse.find? (·.covers base x)

/-- The byte that the sections, put in place in this order, leave at the address. -/
def byteFrom? (bs : Bytes) (base : Address) (ss : List Section) (x : Nat) : Option UInt8 :=
  (lastCovering? base ss x).bind fun s => bs.get? (s.sourceOf base x)

/-- Where the sections, put in place in this order, lead from the memory `m`: the windows are the
same, and every byte is that of the last section that covers it, or what it was. -/
structure LaidOver (bs : Bytes) (base : Address) (ss : List Section) (m m' : Memory) : Prop where
  extents : m'.extents = m.extents
  byte? : ∀ x, m'.byte? x = (byteFrom? bs base ss x).or (m.byte? x)

theorem LaidOver.refl (bs : Bytes) (base : Address) (m : Memory) : LaidOver bs base [] m m :=
  ⟨rfl, fun _ => rfl⟩

theorem Section.isSome_source (hfits : s.Fits bs) (hx : s.covers base x) :
    (bs.get? (s.sourceOf base x)).isSome := by
  unfold Fits at hfits
  simp only [covers, Bool.and_eq_true, decide_eq_true_eq] at hx
  rw [Bytes.get?_isSome]
  unfold sourceOf
  omega

theorem lastCovering?_mem (h : lastCovering? base ss x = some s) : s ∈ ss ∧ s.covers base x :=
  ⟨List.mem_reverse.mp (List.mem_of_find?_eq_some h),
    List.find?_some (p := fun s : Section => s.covers base x) h⟩

theorem byteFrom?_cons (hfits : ∀ s' ∈ ss, s'.Fits bs) :
    byteFrom? bs base (s :: ss) x =
      (byteFrom? bs base ss x).or
        (if s.covers base x then bs.get? (s.sourceOf base x) else none) := by
  have hcons : lastCovering? base (s :: ss) x =
      (lastCovering? base ss x).or (if s.covers base x then some s else none) := by
    unfold lastCovering?
    rw [List.reverse_cons, List.find?_append, List.find?_singleton]
  unfold byteFrom?
  rw [hcons]
  cases hlast : lastCovering? base ss x with
  | some s' =>
    obtain ⟨hmem, hcov⟩ := lastCovering?_mem hlast
    obtain ⟨b, hb⟩ := Option.isSome_iff_exists.mp (Section.isSome_source (hfits s' hmem) hcov)
    simp only [Option.some_or, Option.bind_some, hb]
  | none =>
    simp only [Option.none_or, Option.bind_none]
    split <;> rfl

theorem byteFrom?_eq_none (h : ∀ s ∈ ss, s.covers base x = false) :
    byteFrom? bs base ss x = none := by
  cases hlast : lastCovering? base ss x with
  | some s =>
    obtain ⟨hmem, hcov⟩ := lastCovering?_mem hlast
    exact absurd (hcov.symm.trans (h s hmem)) Bool.noConfusion
  | none => rw [byteFrom?, hlast, Option.bind_none]

/-! ## One section -/

theorem Section.placement_eq_ok {dest : Address} {raw : Bytes}
    (h : s.placement bs base = .ok (dest, raw)) :
    s.Fits bs ∧ raw = bs.slice s.header.rawPointer.toNat s.header.rawSize.toNat ∧
      dest.toNat = base.toNat + s.header.virtualAddress.toNat := by
  unfold placement at h
  dsimp only at h
  split at h
  · rename_i raw' hraw
    obtain ⟨hfits, hslice⟩ := Bytes.slice?_eq_some.mp hraw
    split at h
    · rename_i dest' hdest
      cases h
      exact ⟨hfits, hslice.symm, Address.plus?_eq_some hdest⟩
    · cases h
  · cases h

theorem Section.placement_eq_error {e : PeError} (h : s.placement bs base = .error e) :
    (¬ s.Fits bs ∧ e = .sectionOutOfRange s.index
      (s.header.rawPointer.toNat + s.header.rawSize.toNat) bs.size) ∨
    s.Fits bs ∧ Address.space ≤ base.toNat + s.header.virtualAddress.toNat ∧
      e = .addressOverflow := by
  unfold placement at h
  dsimp only at h
  split at h
  · rename_i raw hraw
    obtain ⟨hfits, -⟩ := Bytes.slice?_eq_some.mp hraw
    split at h
    · cases h
    · rename_i hdest
      cases h
      exact .inr ⟨hfits, Address.plus?_eq_none (Option.eq_none_iff_forall_ne_some.mpr hdest), rfl⟩
  · rename_i hraw
    cases h
    exact .inl ⟨fun hfits => hraw _ (Bytes.slice?_eq_some.mpr ⟨hfits, rfl⟩), rfl⟩

theorem placeSection_of_error {e : PeError} (h : s.placement bs base = .error e) (t : Told Memory) :
    placeSection bs base s t = .error e t := by
  unfold placeSection
  rw [h]
  rfl

theorem placeSection_of_ok {dest : Address} {raw : Bytes}
    (h : s.placement bs base = .ok (dest, raw)) (t : Told Memory) :
    placeSection bs base s t = match Mapping.copy t.state dest raw with
      | (.ok _, m) => .ok raw.size ⟨s.describe dest :: t.said, m⟩
      | (.error e, m) => .error (.destination e) ⟨s.describe dest :: t.said, m⟩ := by
  rw [placeSection, h, Task.liftM_ok_bind]
  change ((Task.say (s.describe dest) : Task Memory PeError Unit) >>= fun _ =>
    Task.update _ _ >>= fun _ => pure raw.size) t = _
  rw [Task.say_bind, Task.bind_apply, Task.update_apply]
  rcases Mapping.copy t.state dest raw with ⟨_ | _, m⟩ <;> rfl

/-- Why the section at place `k` of the table cannot be put into the memory `m`, and the error that
says so. -/
inductive Refused (image : Image) (base : Address) (m : Memory) (k : Nat) : PeError → Prop
  /-- the record does not lie within the file -/
  | unreadable
    (h : image.bytes.size < image.sectionTable + k * SectionHeader.size + SectionHeader.size) :
      Refused image base m k
        (.truncated "section header" (image.sectionTable + k * SectionHeader.size))
  /-- the raw data does not lie within the file -/
  | outOfRange {s : Section} (hs : image.sectionAt k = .ok s) (h : ¬ s.Fits image.bytes) :
      Refused image base m k (.sectionOutOfRange k
        (s.header.rawPointer.toNat + s.header.rawSize.toNat) image.bytes.size)
  /-- there is no address for its first byte -/
  | overflow {s : Section} (hs : image.sectionAt k = .ok s) (hfits : s.Fits image.bytes)
      (h : Address.space ≤ base.toNat + s.header.virtualAddress.toNat) :
      Refused image base m k .addressOverflow
  /-- no window holds the range that it goes to -/
  | unmapped {s : Section} {dest : Address} (hs : image.sectionAt k = .ok s)
      (hfits : s.Fits image.bytes) (hdest : dest.toNat = base.toNat + s.header.virtualAddress.toNat)
      (hsome : s.header.rawSize.toNat ≠ 0)
      (h : m.isMapped dest s.header.rawSize.toNat = false) :
      Refused image base m k (.destination (.unmapped dest s.header.rawSize.toNat))

theorem sectionAt_index {n : Nat} (h : image.sectionAt n = .ok s) : s.index = n := by
  unfold Image.sectionAt at h
  dsimp only at h
  split at h <;> cases h
  rfl

theorem refused_of_unreadable {k : Nat} {e : PeError} (h : image.sectionAt k = .error e)
    (m : Memory) : Refused image base m k e := by
  unfold Image.sectionAt at h
  dsimp only at h
  split at h
  · cases h
  · rename_i hread
    cases h
    refine .unreadable (Nat.not_le.mp fun hle => ?_)
    rw [← Option.not_isSome_iff_eq_none, SectionHeader.read?_isSome] at hread
    exact hread hle

/-- A section that cannot be placed leaves no byte. -/
theorem placeSection_error {t t' : Told Memory} {k : Nat} {e : PeError}
    (hs : image.sectionAt k = .ok s) (h : placeSection image.bytes base s t = .error e t') :
    t'.state = t.state ∧ Refused image base t.state k e := by
  cases hp : s.placement image.bytes base with
  | error e' =>
    rw [placeSection_of_error hp] at h
    cases h
    rcases Section.placement_eq_error hp with ⟨hfits, rfl⟩ | ⟨hfits, hover, rfl⟩
    · rw [sectionAt_index hs]
      exact ⟨rfl, .outOfRange hs hfits⟩
    · exact ⟨rfl, .overflow hs hfits hover⟩
  | ok place =>
    obtain ⟨dest, raw⟩ := place
    obtain ⟨hfits, rfl, hdest⟩ := Section.placement_eq_ok hp
    rw [placeSection_of_ok hp] at h
    rcases hc : Mapping.copy t.state dest (image.bytes.slice _ _) with ⟨e' | _, m⟩ <;>
      rw [hc] at h <;> cases h
    obtain ⟨rfl, hsome, hmapped, hsame⟩ := Mapping.copy_eq_error (congrArg Prod.fst hc)
    rw [hc] at hsame
    rw [Bytes.size_slice hfits] at hsome hmapped ⊢
    exact ⟨hsame, .unmapped hs hfits hdest hsome hmapped⟩

theorem placeSection_ok {t t' : Told Memory} {n : Nat} (hm : t.state.Orderly)
    (h : placeSection bs base s t = .ok n t') :
    s.Fits bs ∧ n = s.header.rawSize.toNat ∧ t'.state.extents = t.state.extents ∧
      ∀ x, t'.state.byte? x =
        (if s.covers base x then bs.get? (s.sourceOf base x) else none).or (t.state.byte? x) := by
  cases hp : s.placement bs base with
  | error e' =>
    rw [placeSection_of_error hp] at h
    cases h
  | ok place =>
    obtain ⟨dest, raw⟩ := place
    obtain ⟨hfits, rfl, hdest⟩ := Section.placement_eq_ok hp
    have hsize := Bytes.size_slice hfits
    rw [placeSection_of_ok hp] at h
    have hbyte := Mapping.byte?_copy hm.apart dest
      (bs.slice s.header.rawPointer.toNat s.header.rawSize.toNat)
    have hagree := Mapping.copy_agreesOff t.state dest
      (bs.slice s.header.rawPointer.toNat s.header.rawSize.toNat)
    rcases hc : Mapping.copy t.state dest
      (bs.slice s.header.rawPointer.toNat s.header.rawSize.toNat) with ⟨e' | _, m⟩ <;>
      rw [hc] at h hbyte hagree <;> cases h
    refine ⟨hfits, hsize, hagree.extents, fun x => ?_⟩
    rw [hbyte rfl x, hsize, hdest]
    by_cases hx : s.covers base x
    · obtain ⟨b, hb⟩ := Option.isSome_iff_exists.mp (Section.isSome_source hfits hx)
      rw [if_pos hx, hb, Option.some_or, ← hb]
      simp only [Section.covers, Bool.and_eq_true, decide_eq_true_eq] at hx
      rw [if_pos hx, Bytes.get?_slice (by omega)]
      rfl
    · rw [if_neg hx, Option.none_or]
      simp only [Section.covers, Bool.and_eq_true, decide_eq_true_eq] at hx
      rw [if_neg hx]

/-! ## The whole table -/

theorem placeAll_of_error {e : PeError} {n : Nat} (h : image.sectionAt n = .error e) (copied : Nat)
    (ns : List Nat) (t : Told Memory) : placeAll image base copied (n :: ns) t = .error e t := by
  unfold placeAll
  rw [h]
  rfl

theorem placeAll_of_ok {n : Nat} (h : image.sectionAt n = .ok s) (copied : Nat) (ns : List Nat)
    (t : Told Memory) : placeAll image base copied (n :: ns) t =
      match placeSection image.bytes base s t with
      | .ok len t' => placeAll image base (copied + len) ns t'
      | .error e t' => .error e t' := by
  rw [placeAll, h, Task.liftM_ok_bind]
  cases hplace : placeSection image.bytes base s t with
  | ok len t' => exact Task.bind_ok hplace
  | error e t' => exact Task.bind_error hplace

/-- The sections are those at the places `ns` of the table, and each has its raw data. -/
structure Image.Lists (image : Image) (ns : List Nat) (ss : List Section) : Prop where
  places : ss.map (·.index) = ns
  readable : ∀ s ∈ ss, image.sectionAt s.index = .ok s
  fits : ∀ s ∈ ss, s.Fits image.bytes

def rawTotal (ss : List Section) : Nat := (ss.map (·.header.rawSize.toNat)).sum

/-- What becomes of the sections at `ns`: all are in place, or those before one that is refused. -/
def Outcome (image : Image) (base : Address) (ns : List Nat) (copied : Nat) (m : Memory) :
    EStateM.Result PeError (Told Memory) Nat → Prop
  | .ok total t => ∃ ss, image.Lists ns ss ∧ total = copied + rawTotal ss ∧
      LaidOver image.bytes base ss m t.state
  | .error e t => ∃ done k rest ss, ns = done ++ k :: rest ∧ image.Lists done ss ∧
      Refused image base t.state k e ∧ LaidOver image.bytes base ss m t.state

theorem Image.Lists.nil (image : Image) : image.Lists [] [] := ⟨rfl, nofun, nofun⟩

theorem Image.Lists.cons {n : Nat} {ns : List Nat} (hs : image.sectionAt n = .ok s)
    (hfits : s.Fits image.bytes) (h : image.Lists ns ss) : image.Lists (n :: ns) (s :: ss) := by
  have hindex := sectionAt_index hs
  refine ⟨by rw [List.map_cons, hindex, h.places], ?_, ?_⟩
  · rw [List.forall_mem_cons, hindex]
    exact ⟨hs, h.readable⟩
  · rw [List.forall_mem_cons]
    exact ⟨hfits, h.fits⟩

/-- What the later sections place lies over what the first one has placed. -/
theorem LaidOver.cons {m m' m'' : Memory} (hfits : ∀ s' ∈ ss, s'.Fits bs)
    (hextents : m'.extents = m.extents)
    (hbyte : ∀ x, m'.byte? x =
      (if s.covers base x then bs.get? (s.sourceOf base x) else none).or (m.byte? x))
    (h : LaidOver bs base ss m' m'') : LaidOver bs base (s :: ss) m m'' :=
  ⟨h.extents.trans hextents, fun x => by
    rw [h.byte? x, hbyte x, byteFrom?_cons hfits, Option.or_assoc]⟩

theorem placeAll_outcome (image : Image) (base : Address) (ns : List Nat) (copied : Nat)
    (t : Told Memory) (hm : t.state.Orderly) :
    Outcome image base ns copied t.state (placeAll image base copied ns t) := by
  induction ns generalizing copied t with
  | nil => exact ⟨[], .nil image, rfl, .refl image.bytes base t.state⟩
  | cons n ns ih =>
    cases hs : image.sectionAt n with
    | error e =>
      rw [placeAll_of_error hs]
      exact ⟨[], n, ns, [], rfl, .nil image, refused_of_unreadable hs t.state,
        .refl image.bytes base t.state⟩
    | ok s =>
      rw [placeAll_of_ok hs]
      cases hplace : placeSection image.bytes base s t with
      | error e t' =>
        obtain ⟨hsame, hrefused⟩ := placeSection_error hs hplace
        refine ⟨[], n, ns, [], rfl, .nil image, ?_, ?_⟩ <;> rw [hsame]
        · exact hrefused
        · exact .refl image.bytes base t.state
      | ok len t' =>
        obtain ⟨hfits, hlen, hextents, hbyte⟩ := placeSection_ok hm hplace
        have hrest := ih (copied + len) t' (hm.of_extents hextents)
        dsimp only
        cases hall : placeAll image base (copied + len) ns t' with
        | ok total u =>
          rw [hall] at hrest
          obtain ⟨ss, hlists, htotal, hlaid⟩ := hrest
          refine ⟨s :: ss, hlists.cons hs hfits, ?_, .cons hlists.fits hextents hbyte hlaid⟩
          rw [htotal, hlen, rawTotal, rawTotal, List.map_cons, List.sum_cons, Nat.add_assoc]
        | error e u =>
          rw [hall] at hrest
          obtain ⟨done, k, rest, ss, rfl, hlists, hrefused, hlaid⟩ := hrest
          exact ⟨n :: done, k, rest, s :: ss, rfl, hlists.cons hs hfits, hrefused,
            .cons hlists.fits hextents hbyte hlaid⟩

/-- However the sections fare, those that were placed are the first few of them. -/
theorem Outcome.laidOver {ns : List Nat} {copied : Nat} {m : Memory}
    {r : EStateM.Result PeError (Told Memory) Nat} (h : Outcome image base ns copied m r) :
    ∃ done ss, done <+: ns ∧ image.Lists done ss ∧
      LaidOver image.bytes base ss m (final r).state := by
  cases r with
  | ok total t =>
    obtain ⟨ss, hlists, -, hlaid⟩ := h
    exact ⟨ns, ss, List.prefix_refl ns, hlists, hlaid⟩
  | error e t =>
    obtain ⟨done, k, rest, ss, rfl, hlists, -, hlaid⟩ := h
    exact ⟨done, ss, List.prefix_append _ _, hlists, hlaid⟩

/-! ## The whole image -/

theorem mem_readable : s ∈ image.readable ↔
    s.index < image.sectionCount ∧ image.sectionAt s.index = .ok s := by
  unfold Image.readable Image.indices
  rw [List.mem_filterMap]
  constructor
  · rintro ⟨n, hn, hs⟩
    rw [List.mem_range] at hn
    cases hat : image.sectionAt n with
    | error e =>
      rw [hat] at hs
      cases hs
    | ok s' =>
      rw [hat] at hs
      cases hs
      rw [sectionAt_index hat]
      exact ⟨hn, hat⟩
  · rintro ⟨hn, hs⟩
    exact ⟨s.index, List.mem_range.mpr hn, by rw [hs]; rfl⟩

theorem filterMap_sectionAt (h : ∀ s ∈ ss, image.sectionAt s.index = .ok s) :
    (ss.map (·.index)).filterMap (fun n => (image.sectionAt n).toOption) = ss := by
  induction ss with
  | nil => rfl
  | cons s ss ih =>
    rw [List.forall_mem_cons] at h
    rw [List.map_cons, List.filterMap_cons, h.1, ih h.2]
    rfl

theorem reach_le_foldl (ss : List Section) (n : Nat) :
    n ≤ ss.foldl (fun n s => max n s.reach) n ∧
      ∀ s ∈ ss, s.reach ≤ ss.foldl (fun n s => max n s.reach) n := by
  induction ss generalizing n with
  | nil => exact ⟨Nat.le_refl n, nofun⟩
  | cons s ss ih =>
    obtain ⟨hn, hss⟩ := ih (max n s.reach)
    rw [List.foldl_cons, List.forall_mem_cons]
    exact ⟨Nat.le_trans (Nat.le_max_left ..) hn, Nat.le_trans (Nat.le_max_right ..) hn, hss⟩

theorem reach_le_footprint (h : s ∈ image.readable) : s.reach ≤ image.footprint :=
  (reach_le_foldl image.readable 0).2 s h

/-- What a section covers lies in the footprint. -/
theorem holds_footprint (h : s ∈ image.readable) (hx : s.covers base x) :
    Region.Holds ⟨base, image.footprint⟩ x := by
  have hreach := reach_le_footprint h
  unfold Section.reach at hreach
  simp only [Section.covers, Bool.and_eq_true, decide_eq_true_eq] at hx
  change base.toNat ≤ x ∧ x < base.toNat + image.footprint
  omega

theorem load_of_parse_error {e : PeError} (h : Image.parse bs = .error e) (t : Told Memory) :
    load bs base t = .error e t := by
  unfold load
  rw [h]
  rfl

theorem load_of_overflow (h : Image.parse bs = .ok image)
    (hentry : base.plus? image.entryRva.toNat = none) (t : Told Memory) :
    load bs base t = .error .addressOverflow t := by
  unfold load
  rw [h, Task.liftM_ok_bind]
  dsimp only
  rw [hentry]
  rfl

def Image.loaded (image : Image) (base entry : Address) (copied : Nat) : Loaded where
  entry := entry
  imageBase := image.imageBase
  base := base
  kind := image.kind
  sections := image.sectionCount
  bytesCopied := copied

theorem load_of_parsed {entry : Address} (h : Image.parse bs = .ok image)
    (hentry : base.plus? image.entryRva.toNat = some entry) (t : Told Memory) :
    load bs base t =
      match placeAll image base 0 image.indices ⟨image.describe :: t.said, t.state⟩ with
      | .ok copied t' =>
        .ok (image.loaded base entry copied)
          ⟨(image.loaded base entry copied).describe :: t'.said, t'.state⟩
      | .error e t' => .error e t' := by
  unfold load
  rw [h, Task.liftM_ok_bind]
  dsimp only
  rw [hentry]
  change ((Task.say image.describe : Task Memory PeError Unit) >>= fun _ =>
    placeAll image base 0 image.indices >>= fun copied =>
      Task.say (image.loaded base entry copied).describe >>= fun _ =>
        pure (image.loaded base entry copied)) t = _
  rw [Task.say_bind]
  cases hplace : placeAll image base 0 image.indices ⟨image.describe :: t.said, t.state⟩ with
  | ok copied t' => exact Task.bind_ok hplace
  | error e t' => exact Task.bind_error hplace

/-- Why nothing of the file goes into memory, and the error that says so. -/
inductive Unloadable (bs : Bytes) (base : Address) : PeError → Prop
  /-- the headers do not hold together -/
  | header {e : PeError} (h : Image.parse bs = .error e) : Unloadable bs base e
  /-- there is no address for the entry point -/
  | entry {image : Image} (hparse : Image.parse bs = .ok image)
      (h : Address.space ≤ base.toNat + image.entryRva.toNat) : Unloadable bs base .addressOverflow

/-- A load ends before the first section, or goes through the section table. -/
theorem load_cases (bs : Bytes) (base : Address) (t : Told Memory) :
    (∃ e, Unloadable bs base e ∧ load bs base t = .error e t) ∨
    ∃ image entry, Image.parse bs = .ok image ∧ base.plus? image.entryRva.toNat = some entry ∧
      load bs base t =
        match placeAll image base 0 image.indices ⟨image.describe :: t.said, t.state⟩ with
        | .ok copied t' =>
          .ok (image.loaded base entry copied)
            ⟨(image.loaded base entry copied).describe :: t'.said, t'.state⟩
        | .error e t' => .error e t' := by
  cases hparse : Image.parse bs with
  | error e => exact .inl ⟨e, .header hparse, load_of_parse_error hparse t⟩
  | ok image =>
    cases hentry : base.plus? image.entryRva.toNat with
    | none =>
      have hover := Address.plus?_eq_none hentry
      exact .inl ⟨.addressOverflow, .entry hparse hover, load_of_overflow hparse hentry t⟩
    | some entry => exact .inr ⟨image, entry, rfl, hentry, load_of_parsed hparse hentry t⟩

theorem Image.Lists.mem_readable {done : List Nat} (h : image.Lists done ss)
    (hdone : done <+: image.indices) (hs : s ∈ ss) : s ∈ image.readable := by
  have hindex : s.index ∈ done := h.places ▸ List.mem_map_of_mem hs
  exact Pe.mem_readable.mpr ⟨List.mem_range.mp (hdone.subset hindex), h.readable s hs⟩

theorem placeAll_agreesOff (image : Image) (base : Address) (t : Told Memory)
    (hm : t.state.Orderly) :
    t.state.AgreesOff (Region.Holds ⟨base, image.footprint⟩)
      (final (placeAll image base 0 image.indices t)).state := by
  obtain ⟨done, ss, hdone, hlists, hlaid⟩ := (placeAll_outcome image base image.indices 0 t hm).laidOver
  refine ⟨hlaid.extents, fun x hx => ?_⟩
  have hnone : byteFrom? image.bytes base ss x = none := by
    apply byteFrom?_eq_none
    intro s hs
    rw [Bool.eq_false_iff]
    exact fun hcov => hx (holds_footprint (hlists.mem_readable hdone hs) hcov)
  rw [hlaid.byte? x, hnone, Option.none_or]

/-- A load, however it ends, writes inside the footprint of an image whose headers hold together,
and nowhere else. -/
theorem load_agreesOff (bs : Bytes) (base : Address) (t : Told Memory) (hm : t.state.Orderly) :
    t.state.AgreesOff
      (fun x => ∃ image, Image.parse bs = .ok image ∧ Region.Holds ⟨base, image.footprint⟩ x)
      (final (load bs base t)).state := by
  rcases load_cases bs base t with ⟨e, -, hload⟩ | ⟨image, entry, hparse, -, hload⟩ <;> rw [hload]
  · exact .refl _
  · have hwrites := placeAll_agreesOff image base ⟨image.describe :: t.said, t.state⟩ hm
    refine Memory.AgreesOff.mono (fun x hx => ⟨image, hparse, hx⟩) ?_
    cases hplace : placeAll image base 0 image.indices ⟨image.describe :: t.said, t.state⟩ with
    | ok copied t' =>
      rw [hplace] at hwrites
      exact hwrites
    | error e t' =>
      rw [hplace] at hwrites
      exact hwrites

/-- After a load that succeeds, every byte that a section covers is that of the last such section,
and every other byte is what it was. -/
theorem load_ok {t t' : Told Memory} {l : Loaded} (hm : t.state.Orderly)
    (h : load bs base t = .ok l t') :
    ∃ image, Image.parse bs = .ok image ∧ image.readable.map (·.index) = image.indices ∧
      (∀ s ∈ image.readable, s.Fits bs) ∧ base.plus? image.entryRva.toNat = some l.entry ∧
      t'.state.extents = t.state.extents ∧
      ∀ x, t'.state.byte? x = (byteFrom? bs base image.readable x).or (t.state.byte? x) := by
  rcases load_cases bs base t with ⟨e, -, hload⟩ | ⟨image, entry, hparse, hentry, hload⟩ <;>
    rw [hload] at h
  · cases h
  · have hall := placeAll_outcome image base image.indices 0
      ⟨image.describe :: t.said, t.state⟩ hm
    cases hplace : placeAll image base 0 image.indices ⟨image.describe :: t.said, t.state⟩ with
    | error e u =>
      rw [hplace] at h
      cases h
    | ok copied u =>
      rw [hplace] at h hall
      cases h
      obtain ⟨ss, hlists, -, hlaid⟩ := hall
      have hreadable : image.readable = ss := by
        unfold Image.readable
        rw [← hlists.places]
        exact filterMap_sectionAt hlists.readable
      have hfits := hlists.fits
      rw [parse_bytes hparse] at hfits hlaid
      refine ⟨image, hparse, ?_, ?_, hentry, hlaid.extents, fun x => ?_⟩
      · rw [hreadable, hlists.places]
      · rwa [hreadable]
      · rw [hreadable]
        exact hlaid.byte? x

end Pe

end BootLoader
