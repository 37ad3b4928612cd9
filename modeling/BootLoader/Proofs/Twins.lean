import BootLoader.Proofs.Computation

/-! Two computations side by side. Twins start from states that look the same and end in states that
look the same, with the same result; what cannot be noticed may be left out of either. Computations
that need not succeed together may still concur: where both succeed, they do so alike. -/

namespace BootLoader

open EStateM (Result)

variable {ε σ τ α β : Type} {view : σ → τ} {P : ε → Prop}

/-- The same result, in states that look the same to `view`; a failure is one of `P`. -/
inductive Alike (view : σ → τ) (P : ε → Prop) : Result ε σ α → Result ε σ α → Prop
  | ok (a : α) {s t : σ} (h : view s = view t) : Alike view P (.ok a s) (.ok a t)
  | error {e : ε} (he : P e) {s t : σ} (h : view s = view t) :
      Alike view P (.error e s) (.error e t)

/-- From states that look the same, both come to the same. -/
def Twins (view : σ → τ) (P : ε → Prop) (x y : EStateM ε σ α) : Prop :=
  ∀ s t, view s = view t → Alike view P (x s) (y t)

/-- The computation succeeds, and nothing that `view` shows changes. -/
def Unseen (view : σ → τ) (x : EStateM ε σ Unit) : Prop := ∀ s, ∃ t, x s = .ok () t ∧ view t = view s

namespace Unseen

theorem pure : Unseen view (Pure.pure () : EStateM ε σ Unit) := fun s => ⟨s, rfl, rfl⟩

theorem modify {f : σ → σ} (h : ∀ s, view (f s) = view s) :
    Unseen view (modify f : EStateM ε σ PUnit) := fun s => ⟨f s, rfl, h s⟩

theorem bind {x : EStateM ε σ Unit} {f : Unit → EStateM ε σ Unit} (hx : Unseen view x)
    (hf : Unseen view (f ())) : Unseen view (x >>= f) := by
  intro s
  obtain ⟨t, ht, hview⟩ := hx s
  obtain ⟨u, hu, hview'⟩ := hf t
  exact ⟨u, by rw [bind_of_ok ht, hu], hview'.trans hview⟩

end Unseen

namespace Twins

theorem pure (a : α) : Twins view P (Pure.pure a : EStateM ε σ α) (Pure.pure a) :=
  fun _ _ h => .ok a h

theorem throw {e : ε} (he : P e) : Twins view P (throw e : EStateM ε σ α) (throw e) :=
  fun _ _ h => .error he h

theorem modify {f g : σ → σ} (h : ∀ s t, view s = view t → view (f s) = view (g t)) :
    Twins view P (modify f : EStateM ε σ PUnit) (modify g) := fun s t hst =>
  .ok PUnit.unit (h s t hst)

theorem of_unseen {x y : EStateM ε σ Unit} (hx : Unseen view x) (hy : Unseen view y) :
    Twins view P x y := by
  intro s t h
  obtain ⟨s', hs, hview⟩ := hx s
  obtain ⟨t', ht, hview'⟩ := hy t
  rw [hs, ht]
  exact .ok () (hview.trans (h.trans hview'.symm))

theorem bind {x y : EStateM ε σ α} {f g : α → EStateM ε σ β} (hx : Twins view P x y)
    (hf : ∀ a, Twins view P (f a) (g a)) : Twins view P (x >>= f) (y >>= g) := by
  intro s t h
  have hst := hx s t h
  rw [bind_apply, bind_apply]
  generalize x s = r, y t = r' at hst
  cases hst with
  | ok a hview => exact hf a _ _ hview
  | error he hview => exact .error he hview

theorem throw_bind {e : ε} (he : P e) {f g : α → EStateM ε σ β} :
    Twins view P ((MonadExcept.throw e : EStateM ε σ α) >>= f) (MonadExcept.throw e >>= g) :=
  fun _ _ h => .error he h

theorem get_bind {f g : σ → EStateM ε σ α}
    (h : ∀ s t, view s = view t → Twins view P (f s) (g t)) :
    Twins view P (get >>= f) (get >>= g) := fun s t hst => h s t hst s t hst

/-- What cannot be noticed may differ. -/
theorem unseen_bind {x y : EStateM ε σ Unit} {f g : Unit → EStateM ε σ α} (hx : Unseen view x)
    (hy : Unseen view y) (hf : Twins view P (f ()) (g ())) : Twins view P (x >>= f) (y >>= g) :=
  bind (of_unseen hx hy) fun _ => hf

end Twins

/-- From states that `R` relates, if both succeed, they have the same result and end in states that
`S` relates. -/
def Concur (R S : σ → σ → Prop) (x y : EStateM ε σ α) : Prop :=
  ∀ s t, R s t → ∀ a b s' t', x s = .ok a s' → y t = .ok b t' → a = b ∧ S s' t'

namespace Concur

variable {R S T : σ → σ → Prop}

theorem of_twins {x y : EStateM ε σ α} (h : Twins view P x y) :
    Concur (fun s t => view s = view t) (fun s t => view s = view t) x y := by
  intro s t hst a b s' t' hx hy
  have halike := h s t hst
  rw [hx, hy] at halike
  cases halike with
  | ok _ hview => exact ⟨rfl, hview⟩

theorem pure (a : α) : Concur R R (Pure.pure a : EStateM ε σ α) (Pure.pure a) := by
  rintro s t hst _ _ _ _ ⟨⟩ ⟨⟩
  exact ⟨rfl, hst⟩

theorem throw_left (e : ε) (y : EStateM ε σ α) : Concur R S (throw e) y := by
  rintro s t hst _ _ _ _ ⟨⟩

theorem throw_right (x : EStateM ε σ α) (e : ε) : Concur R S x (throw e) := by
  rintro s t hst _ _ _ _ _ ⟨⟩

theorem modify {f g : σ → σ} (h : ∀ s t, R s t → S (f s) (g t)) :
    Concur R S (modify f : EStateM ε σ PUnit) (modify g) := by
  rintro s t hst _ _ _ _ ⟨⟩ ⟨⟩
  exact ⟨rfl, h s t hst⟩

theorem get_bind {f g : σ → EStateM ε σ α} (h : ∀ s t, R s t → Concur R S (f s) (g t)) :
    Concur R S (get >>= f) (get >>= g) := fun s t hst => h s t hst s t hst

theorem bind {x y : EStateM ε σ α} {f g : α → EStateM ε σ β} (hx : Concur R S x y)
    (hf : ∀ a, Concur S T (f a) (g a)) : Concur R T (x >>= f) (y >>= g) := by
  intro s t hst b b' s' t' hleft hright
  obtain ⟨a, u, hxu, hfu⟩ := bind_eq_ok.mp hleft
  obtain ⟨a', v, hyv, hgv⟩ := bind_eq_ok.mp hright
  obtain ⟨rfl, huv⟩ := hx s t hst a a' u v hxu hyv
  exact hf a u v huv b b' s' t' hfu hgv

end Concur

end BootLoader
