import BootLoader.Task
import BootLoader.Proofs.Computation
import BootLoader.Proofs.Memory.View

/-! Computations on a memory, and the addresses that they may write. -/

namespace BootLoader

instance (P : Nat → Prop) : IsPreorder Memory (Memory.AgreesOff P) where
  refl := .refl
  trans _ _ _ := .trans

/-- `R` on the states alone, whatever was said. -/
def Told.On {σ : Type} (R : σ → σ → Prop) (t t' : Told σ) : Prop := R t.state t'.state

instance {σ : Type} (R : σ → σ → Prop) [IsPreorder σ R] : IsPreorder (Told σ) (Told.On R) where
  refl t := refl_of R t.state
  trans _ _ _ h h' := trans_of R h h'

namespace Task

variable {σ ε ε' α : Type}

theorem bind_apply {β : Type} (x : Task σ ε α) (f : α → Task σ ε β) (t : Told σ) :
    (x >>= f) t = match x t with
      | .ok a t' => f a t'
      | .error e t' => .error e t' := by
  cases h : x t with
  | ok a t' => exact bind_ok h
  | error e t' => exact bind_error h

theorem bind_eq_ok {β : Type} {x : Task σ ε α} {f : α → Task σ ε β} {t u : Told σ} {b : β} :
    (x >>= f) t = .ok b u ↔ ∃ a t', x t = .ok a t' ∧ f a t' = .ok b u := by
  rw [bind_apply]
  constructor
  · intro h
    cases hx : x t with
    | ok a t' =>
      rw [hx] at h
      exact ⟨a, t', rfl, h⟩
    | error e t' =>
      rw [hx] at h
      cases h
  · rintro ⟨a, t', hx, hf⟩
    rw [hx]
    exact hf

theorem liftM_ok_bind {β : Type} (a : α) (f : α → Task σ ε β) (t : Told σ) :
    ((liftM (Except.ok a : Except ε α) : Task σ ε α) >>= f) t = f a t := rfl

theorem say_bind {β : Type} (line : Line) (f : Unit → Task σ ε β) (t : Told σ) :
    ((say line : Task σ ε Unit) >>= f) t = f () ⟨line :: t.said, t.state⟩ := rfl

theorem run_snd (x : Task σ ε α) (s : σ) : (x.run s).2 = (final (x ⟨[], s⟩)).state := by
  unfold run
  cases x ⟨[], s⟩ <;> rfl

theorem run_eq_ok {x : Task σ ε α} {s : σ} {a : α} :
    (x.run s).1.result = .ok a ↔ ∃ t, x ⟨[], s⟩ = .ok a t ∧ (x.run s).2 = t.state := by
  unfold run
  cases x ⟨[], s⟩ with
  | ok b t =>
    constructor
    · intro h
      cases h
      exact ⟨t, rfl, rfl⟩
    · rintro ⟨_, h, -⟩
      cases h
      rfl
  | error e t =>
    constructor
    · exact nofun
    · rintro ⟨_, h, -⟩
      cases h

variable {R : σ → σ → Prop} [IsPreorder σ R]

theorem keeps_fail (e : ε) : Keeps (Told.On R) (fail e : Task σ ε α) := fun t => refl_of R t.state

theorem keeps_say (line : Line) : Keeps (Told.On R) (say line : Task σ ε Unit) :=
  fun t => refl_of R t.state

theorem update_apply (wrap : ε' → ε) (f : σ → Except ε' α × σ) (t : Told σ) :
    (update wrap f : Task σ ε α) t = match f t.state with
      | (.ok a, s) => .ok a ⟨t.said, s⟩
      | (.error e, s) => .error (wrap e) ⟨t.said, s⟩ := rfl

omit [IsPreorder σ R] in
theorem keeps_update {wrap : ε' → ε} {f : σ → Except ε' α × σ} (h : ∀ s, R s (f s).2) :
    Keeps (Told.On R) (update wrap f : Task σ ε α) := by
  intro t
  have ht := h t.state
  rw [update_apply]
  rcases hf : f t.state with ⟨_ | _, s⟩ <;> rw [hf] at ht <;> exact ht

theorem run_update_id (f : σ → Except ε α × σ) (s : σ) :
    ((update id f : Task σ ε α).run s).1.result = (f s).1 := by
  unfold run
  rw [update_apply]
  rcases f s with ⟨_ | _, _⟩ <;> rfl

/-- A change that succeeds as a computation succeeded as a change. -/
theorem update_eq_ok {wrap : ε' → ε} {f : σ → Except ε' α × σ} {t t' : Told σ} {a : α}
    (h : (update wrap f : Task σ ε α) t = .ok a t') : f t.state = (.ok a, t'.state) := by
  rw [update_apply] at h
  rcases hf : f t.state with ⟨e | b, s⟩ <;> rw [hf] at h <;> cases h
  rfl

end Task

end BootLoader
