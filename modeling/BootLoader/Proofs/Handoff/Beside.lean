import BootLoader.Proofs.Handoff.Placement
import BootLoader.Proofs.Twins

/-! Two memories side by side that differ in some of their bytes at most. Where a write succeeds in
both, they differ in no byte that they did not differ in before; so do copies, images and clears,
whichever regions the clears are to spare. -/

namespace BootLoader

variable {P : Nat → Prop} {m m' : Memory} {ε ε' α : Type}

namespace Memory.AgreesOff

theorem symm (h : m.AgreesOff P m') : m'.AgreesOff P m :=
  ⟨h.extents.symm, fun x hx => (h.byte? x hx).symm⟩

variable {a : Address} {data : Bytes} {r : Region} {value : UInt8}

/-- The same bytes come to the same place in both. -/
theorem place (h : m.AgreesOff P m') (hm : m.Orderly) (hok : (Mapping.place m a data).1 = .ok ())
    (hok' : (Mapping.place m' a data).1 = .ok ()) :
    (Mapping.place m a data).2.AgreesOff P (Mapping.place m' a data).2 := by
  have hextents := (Mapping.place_agreesOff m a data).extents
  have hextents' := (Mapping.place_agreesOff m' a data).extents
  refine ⟨hextents'.trans (h.extents.trans hextents.symm), fun x hx => ?_⟩
  rw [Mapping.byte?_place hm.apart hok, Mapping.byte?_place (hm.of_extents h.extents).apart hok',
    h.byte? x hx]

theorem copy (h : m.AgreesOff P m') (hm : m.Orderly) (hok : (Mapping.copy m a data).1 = .ok ())
    (hok' : (Mapping.copy m' a data).1 = .ok ()) :
    (Mapping.copy m a data).2.AgreesOff P (Mapping.copy m' a data).2 := by
  unfold Mapping.copy at hok hok' ⊢
  split
  · exact h
  · rename_i hne
    rw [if_neg hne] at hok hok'
    exact h.place hm hok hok'

theorem fill (h : m.AgreesOff P m') (hm : m.Orderly) (hok : (Mapping.fill m r value).1 = .ok ())
    (hok' : (Mapping.fill m' r value).1 = .ok ()) :
    (Mapping.fill m r value).2.AgreesOff P (Mapping.fill m' r value).2 := by
  unfold Mapping.fill at hok hok' ⊢
  split
  · exact h
  · rename_i hne
    rw [if_neg hne] at hok hok'
    split at hok
    · cases hok
    · rename_i hmapped
      split at hok'
      · cases hok'
      · rename_i hmapped'
        rw [if_neg hmapped, if_neg hmapped']
        exact h.place hm hok hok'

end Memory.AgreesOff

/-- The first memory is orderly, and the second differs from it at `P` alone. -/
structure Told.Beside (P : Nat → Prop) (t u : Told Memory) : Prop where
  orderly : t.state.Orderly
  agrees : t.state.AgreesOff P u.state

namespace Task

open Told

theorem concur_say (line line' : Line) :
    Concur (Beside P) (Beside P) (say line : Task Memory ε Unit) (say line') := by
  rintro t u h _ _ _ _ ⟨⟩ ⟨⟩
  exact ⟨rfl, h.orderly, h.agrees⟩

theorem concur_liftM (r : Except ε α) :
    Concur (Beside P) (Beside P) (liftM r : Task Memory ε α) (liftM r : Task Memory ε α) := by
  cases r with
  | ok a => exact Concur.pure a
  | error e => exact Concur.throw_left e _

theorem concur_update {wrap : ε' → ε} {f : Memory → Except ε' Unit × Memory}
    (hextents : ∀ m, (f m).2.extents = m.extents)
    (hf : ∀ m m' : Memory, m.Orderly → m.AgreesOff P m' → (f m).1 = .ok () → (f m').1 = .ok () →
      (f m).2.AgreesOff P (f m').2) :
    Concur (Beside P) (Beside P) (update wrap f : Task Memory ε Unit) (update wrap f) := by
  intro t u h _ _ t' u' ht hu
  have htf := update_eq_ok ht
  have huf := update_eq_ok hu
  have hagrees := hf t.state u.state h.orderly h.agrees (by rw [htf]) (by rw [huf])
  have hsame := hextents t.state
  rw [htf, huf] at hagrees
  rw [htf] at hsame
  exact ⟨rfl, h.orderly.of_extents hsame, hagrees⟩

theorem concur_copy (wrap : MemoryError → ε) (a : Address) (data : Bytes) :
    Concur (Beside P) (Beside P)
      (update wrap fun m => Mapping.copy m a data : Task Memory ε Unit)
      (update wrap fun m => Mapping.copy m a data) :=
  concur_update (fun m => (Mapping.copy_agreesOff m a data).extents)
    fun _ _ hm h hok hok' => h.copy hm hok hok'

end Task

open Told

/-! ## Clears -/

namespace Platform

theorem concur_zero (r : Region) :
    Concur (Beside P) (Beside P) (zero r : Task Memory PlatformError Unit) (zero r) := by
  refine Concur.bind (Task.concur_update (fun m => (Mapping.fill_agreesOff m r 0).extents)
    fun _ _ hm h hok hok' => h.fill hm hok hok') fun _ => ?_
  exact Task.concur_update (fun _ => rfl) fun _ _ _ h _ _ => h

theorem concur_zeroAll (phase : ClearPhase) (cleared : Nat) (rs : List Region) :
    Concur (Beside P) (Beside P) (zeroAll phase cleared rs : Task Memory PlatformError Nat)
      (zeroAll phase cleared rs) := by
  induction rs generalizing cleared with
  | nil => exact Concur.pure cleared
  | cons r rs ih =>
    exact Concur.bind (Task.concur_say _ _) fun _ =>
      Concur.bind (concur_zero r) fun _ => ih (cleared + r.len)

/-- What is to be spared decides whether a clear succeeds, but not what it does then. -/
theorem concur_clear (p : Platform) (phase : ClearPhase) (guarded guarded' : List Region) :
    Concur (Beside P) (Beside P) (p.clear phase guarded : Task Memory PlatformError Nat)
      (p.clear phase guarded') := by
  rw [clear_eq, clear_eq]
  cases p.conflict? guarded (p.clearPlan phase) with
  | some hit => exact Concur.throw_left _ _
  | none =>
    cases p.conflict? guarded' (p.clearPlan phase) with
    | some hit => exact Concur.throw_right _ _
    | none => exact concur_zeroAll phase 0 _

end Platform

/-! ## Images -/

namespace Pe

theorem concur_placeSection (image : Bytes) (base : Address) (s : Section) :
    Concur (Beside P) (Beside P) (placeSection image base s : Task Memory PeError Nat)
      (placeSection image base s) := by
  refine Concur.bind (Task.concur_liftM _) fun ⟨dest, raw⟩ => ?_
  refine Concur.bind (Task.concur_say _ _) fun _ => ?_
  exact Concur.bind (Task.concur_copy _ dest raw) fun _ => Concur.pure _

theorem concur_placeAll (image : Image) (base : Address) (copied : Nat) (ns : List Nat) :
    Concur (Beside P) (Beside P) (placeAll image base copied ns : Task Memory PeError Nat)
      (placeAll image base copied ns) := by
  induction ns generalizing copied with
  | nil => exact Concur.pure copied
  | cons n ns ih =>
    refine Concur.bind (Task.concur_liftM _) fun s => ?_
    exact Concur.bind (concur_placeSection _ _ _) fun len => ih (copied + len)

theorem concur_load (bs : Bytes) (base : Address) :
    Concur (Beside P) (Beside P) (load bs base : Task Memory PeError Loaded) (load bs base) := by
  unfold load
  refine Concur.bind (Task.concur_liftM _) fun image => ?_
  split
  · refine Concur.bind (Task.concur_say _ _) fun _ => ?_
    refine Concur.bind (concur_placeAll _ _ _ _) fun copied => ?_
    exact Concur.bind (Task.concur_say _ _) fun _ => Concur.pure _
  · exact Concur.throw_left _ _

end Pe

end BootLoader
