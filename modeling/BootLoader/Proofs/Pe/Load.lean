import BootLoader.Proofs.Pe.Effect

/-! What a load tells and what it leaves in memory, for any file, any base and any memory. Either
all sections of the table are in place, or those before the one that is refused, or none because the
headers say nothing that can be loaded. -/

namespace BootLoader.Pe

variable {bs : Bytes} {base : Address} {image : Image} {ss : List Section} {m : Memory}

theorem rawTotal_le (ss : List Section) : rawTotal ss ≤ ss.length * 2 ^ 32 := by
  unfold rawTotal
  induction ss with
  | nil => simp
  | cons s ss ih =>
    have hsize : s.header.rawSize.toNat < 2 ^ 32 := s.header.rawSize.toNat_lt
    simp only [List.map_cons, List.sum_cons, List.length_cons]
    omega

/-- The sizes of all sections come to a number of 64 bits: there are too few records for more. -/
theorem Image.Lists.rawTotal_lt (h : image.Lists image.indices ss) : rawTotal ss < Address.space := by
  have hlength : ss.length = image.sectionCount := by
    simpa [Image.indices] using congrArg List.length h.places
  have hcount : image.sectionCount < 2 ^ 16 := image.header.sectionCount.toNat_lt
  have hle := rawTotal_le ss
  change _ < 2 ^ 64
  omega

/-- The places are numbered from zero, so the number of one tells how many come before it. -/
theorem Image.eq_range_of_indices {done rest : List Nat} {k : Nat}
    (h : image.indices = done ++ k :: rest) : k < image.sectionCount ∧ done = List.range k := by
  unfold Image.indices at h
  have hlength : image.sectionCount = done.length + (rest.length + 1) := by
    simpa using congrArg List.length h
  have hk : k = done.length := by
    have hget := congrArg (·[done.length]?) h
    simp [hlength] at hget
    exact hget.symm
  have htake := congrArg (List.take done.length) h
  rw [List.take_range, List.take_left, Nat.min_eq_left (by omega)] at htake
  exact ⟨by omega, hk ▸ htake.symm⟩

structure Loaded.Describes (l : Loaded) (image : Image) (base : Address) (ss : List Section) : Prop where
  entry : l.entry.toNat = base.toNat + image.entryRva.toNat
  sections : l.sections = image.header.sectionCount.toNat
  bytesCopied : l.bytesCopied = rawTotal ss
  bounded : rawTotal ss < Address.space

theorem Image.describes_loaded {entry : Address} (hlists : image.Lists image.indices ss)
    (hentry : base.plus? image.entryRva.toNat = some entry) :
    (image.loaded base entry (0 + rawTotal ss)).Describes image base ss where
  entry := Address.plus?_eq_some hentry
  sections := rfl
  bytesCopied := Nat.zero_add _
  bounded := hlists.rawTotal_lt

/-- A load either succeeds with every section in place, the later ones over the earlier, or fails
with exactly the sections before the refused one in place; what is wrong with the file as a whole is
found before the first byte is written. -/
theorem load_effect (bs : Bytes) (base : Address) (hm : m.Orderly) :
    (∀ l, ((load bs base).run m).1.result = .ok l →
      ∃ image ss, Image.parse bs = .ok image ∧ image.Lists image.indices ss ∧
        l.Describes image base ss ∧ LaidOver bs base ss m ((load bs base).run m).2) ∧
    ∀ e, ((load bs base).run m).1.result = .error e →
      (Unloadable bs base e ∧ ((load bs base).run m).2 = m) ∨
      ∃ image k ss, Image.parse bs = .ok image ∧ k < image.sectionCount ∧
        image.Lists (List.range k) ss ∧ Refused image base ((load bs base).run m).2 k e ∧
        LaidOver bs base ss m ((load bs base).run m).2 := by
  unfold Task.run
  rcases load_cases bs base ⟨[], m⟩ with ⟨e, hunloadable, hload⟩ |
      ⟨image, entry, hparse, hentry, hload⟩ <;> rw [hload]
  · refine ⟨nofun, fun e' he => ?_⟩
    cases he
    exact .inl ⟨hunloadable, rfl⟩
  · have houtcome := placeAll_outcome image base image.indices 0 ⟨image.describe :: [], m⟩ hm
    cases hplace : placeAll image base 0 image.indices ⟨image.describe :: [], m⟩ with
    | ok copied t =>
      rw [hplace] at houtcome
      obtain ⟨ss, hlists, rfl, hlaid⟩ := houtcome
      refine ⟨fun l hl => ?_, nofun⟩
      cases hl
      rw [parse_bytes hparse] at hlaid
      exact ⟨image, ss, hparse, hlists, image.describes_loaded hlists hentry, hlaid⟩
    | error e t =>
      rw [hplace] at houtcome
      obtain ⟨done, k, rest, ss, hindices, hlists, hrefused, hlaid⟩ := houtcome
      obtain ⟨hk, rfl⟩ := Image.eq_range_of_indices hindices
      refine ⟨nofun, fun e' he => .inr ?_⟩
      cases he
      rw [parse_bytes hparse] at hlaid
      exact ⟨image, k, ss, hparse, hk, hlists, hrefused, hlaid⟩

namespace Sample

/-- Two sections, the second over the last two bytes of the first. Its raw data starts at `start`:
the file has enough of them from 204 on, not from 205 on. -/
def file (start : UInt8) : Bytes := .ofList <|
  [0x4D, 0x5A] ++ .replicate 58 0 ++ [0x40, 0, 0, 0] ++ [0x50, 0x45, 0, 0] ++
  [0, 0, 2, 0] ++ .replicate 12 0 ++ [32, 0, 0, 0] ++ [0x0B, 0x02] ++ .replicate 30 0 ++
  .replicate 12 0 ++ [0x10, 0, 0, 0, 4, 0, 0, 0, 200, 0, 0, 0] ++ .replicate 16 0 ++
  .replicate 12 0 ++ [0x12, 0, 0, 0, 2, 0, 0, 0, start, 0, 0, 0] ++ .replicate 16 0 ++
  [1, 2, 3, 4, 5, 6]

def memory : Memory := ⟨[⟨.ofNat 0x1000, .filled 0x20 0xFF⟩]⟩

theorem orderly_memory : memory.Orderly := ⟨List.pairwise_singleton .., by decide +kernel⟩

def outcome (start : UInt8) : Option Nat × List (Option UInt8) :=
  let (told, m) := (load (file start) (.ofNat 0x1000)).run memory
  (told.result.toOption.map (·.bytesCopied), [0x1010, 0x1011, 0x1012, 0x1013, 0x1014].map m.byte?)

end Sample

theorem load_effect_sample :
    (Sample.outcome 204 = (some 6, [some 1, some 2, some 5, some 6, some 0xFF]) ∧
      ∃ image ss, Image.parse (Sample.file 204) = .ok image ∧ image.Lists image.indices ss ∧
        rawTotal ss = 6) ∧
    Sample.outcome 205 = (none, [some 1, some 2, some 3, some 4, some 0xFF]) ∧
      ∃ e image k ss, Image.parse (Sample.file 205) = .ok image ∧ k < image.sectionCount ∧
        image.Lists (List.range k) ss ∧
        Refused image (.ofNat 0x1000)
          ((load (Sample.file 205) (.ofNat 0x1000)).run Sample.memory).2 k e := by
  have hok : Sample.outcome 204 = (some 6, [some 1, some 2, some 5, some 6, some 0xFF]) := by
    decide +kernel
  have herror : Sample.outcome 205 = (none, [some 1, some 2, some 3, some 4, some 0xFF]) := by
    decide +kernel
  refine ⟨⟨hok, ?_⟩, herror, ?_⟩
  · cases hresult : ((load (Sample.file 204) (.ofNat 0x1000)).run Sample.memory).1.result with
    | error e =>
      have hnone := congrArg Prod.fst hok
      simp [Sample.outcome, hresult, Except.toOption] at hnone
    | ok l =>
      obtain ⟨image, ss, hparse, hlists, hdescribes, -⟩ :=
        (load_effect (Sample.file 204) (.ofNat 0x1000) Sample.orderly_memory).1 l hresult
      have hsix := congrArg Prod.fst hok
      simp [Sample.outcome, hresult, Except.toOption] at hsix
      exact ⟨image, ss, hparse, hlists, hdescribes.bytesCopied ▸ hsix⟩
  · cases hresult : ((load (Sample.file 205) (.ofNat 0x1000)).run Sample.memory).1.result with
    | ok l =>
      have hsome := congrArg Prod.fst herror
      simp [Sample.outcome, hresult, Except.toOption] at hsome
    | error e =>
      rcases (load_effect (Sample.file 205) (.ofNat 0x1000) Sample.orderly_memory).2 e hresult with
        ⟨-, hsame⟩ | ⟨image, k, ss, hparse, hk, hlists, hrefused, -⟩
      · have hbytes := congrArg Prod.snd herror
        simp only [Sample.outcome, hsame] at hbytes
        exact absurd hbytes (by decide +kernel)
      · exact ⟨e, image, k, ss, hparse, hk, hlists, hrefused⟩

end BootLoader.Pe
