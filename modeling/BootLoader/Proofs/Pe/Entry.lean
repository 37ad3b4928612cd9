import BootLoader.Proofs.Pe.Effect

/-! Where an image is entered: as far from its load address as its optional header says. -/

namespace BootLoader.Pe

variable {bs : Bytes} {image : Image}

/-- The number that the four bytes 40 after the signature spell, where those at `0x3C` lead to the
signature. -/
structure HasEntryPoint (bs : Bytes) (rva : Nat) : Prop where
  pointer : 0x3C + 4 ≤ bs.size
  room : bs.field 0x3C 4 + 40 + 4 ≤ bs.size
  entry : bs.field (bs.field 0x3C 4 + 40) 4 = rva

theorem hasEntryPoint_of_parse (h : Image.parse bs = .ok image) :
    HasEntryPoint bs image.entryRva.toNat := by
  obtain ⟨hformed, hdescribes⟩ := parse_eq_ok.mp h
  have hfits : signatureAt bs + 24 + optionalLength bs ≤ bs.size := hformed.fits
  have hlong := hformed.length
  have hroom : signatureAt bs + 40 + 4 ≤ bs.size := by omega
  exact ⟨hformed.room, hroom, hdescribes.entryRva.symm⟩

variable {μ : Type} [Mapping μ]

/-- A load that succeeds gives the entry point at its place, without leaving the address space. -/
theorem entry_of_load {base : Address} {t t' : Told μ} {l : Loaded} (h : load bs base t = .ok l t') :
    ∃ rva, HasEntryPoint bs rva ∧ l.entry.toNat = base.toNat + rva := by
  unfold load at h
  cases hparse : Image.parse bs with
  | error e =>
    rw [hparse] at h
    cases h
  | ok image =>
    rw [hparse, Task.liftM_ok_bind] at h
    dsimp only at h
    refine ⟨image.entryRva.toNat, hasEntryPoint_of_parse hparse, ?_⟩
    cases hentry : base.plus? image.entryRva.toNat with
    | none =>
      rw [hentry] at h
      cases h
    | some entry =>
      rw [hentry] at h
      obtain ⟨_, _, -, h⟩ := Task.bind_eq_ok.mp h
      obtain ⟨copied, _, -, h⟩ := Task.bind_eq_ok.mp h
      obtain ⟨_, _, -, h⟩ := Task.bind_eq_ok.mp h
      cases h
      exact Address.plus?_eq_some hentry

end BootLoader.Pe
