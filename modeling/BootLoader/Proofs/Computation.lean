import Mathlib.Order.Defs.Unbundled

/-! What a computation does to its state, however it ends. `Keeps R` says that `R` leads from the
state at the start to the one at the end; for a preorder `R` it is passed on from the parts of a
computation to the whole. `Fails R` says the same of failures alone. `Follows` says that a
computation adds to a record what a script holds, or the beginning of it if it fails half-way. -/

namespace BootLoader

open EStateM (Result)

variable {ε σ τ α β γ : Type}

/-- The state at the end, be it after a failure. -/
def final : Result ε σ α → σ
  | .ok _ t => t
  | .error _ t => t

def failure? : Result ε σ α → Option ε
  | .ok .. => none
  | .error e _ => some e

def success? : Result ε σ α → Option α
  | .ok a _ => some a
  | .error .. => none

theorem eq_ok_of_failure? {r : Result ε σ α} (h : failure? r = none) : ∃ a, r = .ok a (final r) := by
  cases r with
  | ok a t => exact ⟨a, rfl⟩
  | error e t => cases h

theorem eq_error_of_failure? {r : Result ε σ α} {e : ε} (h : failure? r = some e) :
    r = .error e (final r) := by
  cases r with
  | ok a t => cases h
  | error e' t =>
    cases h
    rfl

theorem bind_apply (x : EStateM ε σ α) (f : α → EStateM ε σ β) (s : σ) :
    (x >>= f) s = match x s with
      | .ok a t => f a t
      | .error e t => .error e t := rfl

@[simp] theorem get_bind (f : σ → EStateM ε σ β) (s : σ) :
    ((get : EStateM ε σ σ) >>= f) s = f s s := rfl

@[simp] theorem set_bind (t : σ) (f : PUnit → EStateM ε σ β) (s : σ) :
    ((set t : EStateM ε σ PUnit) >>= f) s = f ⟨⟩ t := rfl

@[simp] theorem modify_bind (g : σ → σ) (f : PUnit → EStateM ε σ β) (s : σ) :
    ((modify g : EStateM ε σ PUnit) >>= f) s = f ⟨⟩ (g s) := rfl

theorem bind_of_ok {x : EStateM ε σ α} {f : α → EStateM ε σ β} {s t : σ} {a : α}
    (h : x s = .ok a t) : (x >>= f) s = f a t := by
  rw [bind_apply, h]

theorem bind_of_error {x : EStateM ε σ α} {f : α → EStateM ε σ β} {s t : σ} {e : ε}
    (h : x s = .error e t) : (x >>= f) s = .error e t := by
  rw [bind_apply, h]

theorem bind_eq_ok {x : EStateM ε σ α} {f : α → EStateM ε σ β} {s u : σ} {b : β} :
    (x >>= f) s = .ok b u ↔ ∃ a t, x s = .ok a t ∧ f a t = .ok b u := by
  rw [bind_apply]
  cases x s with
  | ok a t =>
    constructor
    · exact fun h => ⟨a, t, rfl, h⟩
    · rintro ⟨_, _, hx, hf⟩
      cases hx
      exact hf
  | error e t =>
    constructor
    · exact nofun
    · rintro ⟨_, _, hx, -⟩
      cases hx

theorem bind_eq_error {x : EStateM ε σ α} {f : α → EStateM ε σ β} {s u : σ} {e : ε} :
    (x >>= f) s = .error e u ↔ x s = .error e u ∨ ∃ a t, x s = .ok a t ∧ f a t = .error e u := by
  rw [bind_apply]
  cases x s with
  | ok a t =>
    constructor
    · exact fun h => .inr ⟨a, t, rfl, h⟩
    · rintro (hx | ⟨_, _, hx, hf⟩)
      · cases hx
      · cases hx
        exact hf
  | error e' t =>
    constructor
    · intro h
      cases h
      exact .inl rfl
    · rintro (hx | ⟨_, _, hx, -⟩) <;> cases hx
      rfl

@[simp] theorem except_ok_bind (a : α) (f : α → Except ε β) : (Except.ok a >>= f) = f a := rfl

@[simp] theorem except_error_bind (e : ε) (f : α → Except ε β) :
    ((Except.error e : Except ε α) >>= f) = .error e := rfl

theorem except_bind_eq_ok {x : Except ε α} {f : α → Except ε β} {b : β} :
    (x >>= f) = .ok b ↔ ∃ a, x = .ok a ∧ f a = .ok b := by
  cases x <;> simp

/-! ## Relations between the first state and the last -/

def Keeps (R : σ → σ → Prop) (x : EStateM ε σ α) : Prop := ∀ s, R s (final (x s))

/-- The two states look the same to `view`. -/
def Same (view : σ → τ) (s t : σ) : Prop := view t = view s

instance (view : σ → τ) : IsPreorder σ (Same view) where
  refl _ := rfl
  trans _ _ _ h h' := Eq.trans h' h

namespace Keeps

variable {R R' : σ → σ → Prop}

theorem of_ok {x : EStateM ε σ α} (hx : Keeps R x) {s t : σ} {a : α} (h : x s = .ok a t) :
    R s t := by
  have hs := hx s
  rwa [h] at hs

theorem of_error {x : EStateM ε σ α} (hx : Keeps R x) {s t : σ} {e : ε} (h : x s = .error e t) :
    R s t := by
  have hs := hx s
  rwa [h] at hs

theorem mono {x : EStateM ε σ α} (hx : Keeps R x) (h : ∀ s t, R s t → R' s t) : Keeps R' x :=
  fun s => h _ _ (hx s)

variable [IsPreorder σ R]

theorem pure (a : α) : Keeps R (Pure.pure a : EStateM ε σ α) := fun s => refl_of R s

theorem throw (e : ε) : Keeps R (throw e : EStateM ε σ α) := fun s => refl_of R s

theorem get : Keeps R (get : EStateM ε σ σ) := fun s => refl_of R s

omit [IsPreorder σ R] in
theorem modify {f : σ → σ} (h : ∀ s, R s (f s)) : Keeps R (modify f : EStateM ε σ PUnit) := h

theorem bind {x : EStateM ε σ α} {f : α → EStateM ε σ β} (hx : Keeps R x)
    (hf : ∀ a, Keeps R (f a)) : Keeps R (x >>= f) := by
  intro s
  have hs := hx s
  rw [bind_apply]
  cases h : x s with
  | ok a t =>
    rw [h] at hs
    exact trans_of R hs (hf a t)
  | error e t =>
    rw [h] at hs
    exact hs

/-- Whatever a bind ends in, its first part ends where `R` leads from `s`. -/
theorem bind_elim {x : EStateM ε σ α} {f : α → EStateM ε σ β} (hx : Keeps R x) {s t : σ}
    (ht : R s t) {Q : Result ε σ β → Prop} (herror : ∀ e u, R s u → Q (.error e u))
    (hok : ∀ a u, R s u → Q (f a u)) : Q ((x >>= f) t) := by
  have hu := trans_of R ht (hx t)
  rw [bind_apply]
  cases h : x t <;> rw [h] at hu
  · exact hok _ _ hu
  · exact herror _ _ hu

end Keeps

/-- Where the computation fails, `R` has led there. -/
def Fails (R : σ → σ → Prop) (x : EStateM ε σ α) : Prop := ∀ s e t, x s = .error e t → R s t

theorem Keeps.fails {R : σ → σ → Prop} {x : EStateM ε σ α} (h : Keeps R x) : Fails R x :=
  fun _ _ _ => h.of_error

theorem Fails.bind {R : σ → σ → Prop} [IsPreorder σ R] {x : EStateM ε σ α} {f : α → EStateM ε σ β}
    (hx : Keeps R x) (hf : ∀ a, Fails R (f a)) : Fails R (x >>= f) := by
  intro s e t h
  rw [bind_apply] at h
  cases hs : x s with
  | ok a u =>
    rw [hs] at h
    exact trans_of R (hx.of_ok hs) (hf a u e t h)
  | error e' u =>
    rw [hs] at h
    cases h
    exact hx.of_error hs

/-- From where `I` holds, the computation leads to where it holds, or fails as `E` says. -/
def Guarded (I : σ → Prop) (E : ε → Prop) (x : EStateM ε σ α) : Prop :=
  ∀ s, I s → match x s with
    | .ok _ t => I t
    | .error e _ => E e

namespace Guarded

variable {I : σ → Prop} {E : ε → Prop} {x : EStateM ε σ α}

theorem of_error (h : Guarded I E x) {s t : σ} {e : ε} (hs : I s) (hx : x s = .error e t) : E e := by
  have hall := h s hs
  rwa [hx] at hall

/-- What the computation keeps needs no guard. -/
theorem of_keeps {view : σ → τ} {P : τ → Prop} (hx : Keeps (Same view) x)
    (he : ∀ s e t, x s = .error e t → E e) : Guarded (fun s => P (view s)) E x := by
  intro s hs
  have hview := hx s
  cases h : x s with
  | ok a t =>
    rw [h] at hview
    change P (view t)
    rwa [show view t = view s from hview]
  | error e t => exact he s e t h

theorem pure (a : α) : Guarded I E (Pure.pure a : EStateM ε σ α) := fun _ hs => hs

theorem get : Guarded I E (get : EStateM ε σ σ) := fun _ hs => hs

theorem modify {f : σ → σ} (h : ∀ s, I s → I (f s)) :
    Guarded I E (modify f : EStateM ε σ PUnit) := h

theorem throw {e : ε} (he : E e) : Guarded I E (throw e : EStateM ε σ α) := fun _ _ => he

theorem bind {f : α → EStateM ε σ β} (hx : Guarded I E x) (hf : ∀ a, Guarded I E (f a)) :
    Guarded I E (x >>= f) := by
  intro s hs
  have hall := hx s hs
  rw [bind_apply]
  cases h : x s with
  | ok a t =>
    rw [h] at hall
    exact hf a t hall
  | error e t =>
    rw [h] at hall
    exact hall

end Guarded

/-! ## Scripts -/

/-- What `view` shows at the end is what it showed at the start, and after it `script`; after a
failure, the beginning of `script`. -/
def Follows (view : σ → List γ) (script : List γ) (s : σ) : Result ε σ α → Prop
  | .ok _ t => view t = view s ++ script
  | .error _ t => ∃ done, done <+: script ∧ view t = view s ++ done

namespace Follows

variable {view : σ → List γ} {s : σ}

theorem of_same {r : Result ε σ α} (h : view (final r) = view s) : Follows view [] s r := by
  cases r with
  | ok a t => exact h.trans (List.append_nil _).symm
  | error e t => exact ⟨[], List.prefix_refl _, h.trans (List.append_nil _).symm⟩

/-- A failure at once adds nothing. -/
theorem error (script : List γ) (e : ε) : Follows view script s (.error e s : Result ε σ α) :=
  ⟨[], List.nil_prefix, (List.append_nil _).symm⟩

theorem of_ok {script : List γ} {t : σ} {a : α} {x : EStateM ε σ α}
    (h : Follows view script s (x s)) (hx : x s = .ok a t) : view t = view s ++ script := by
  rwa [hx] at h

theorem bind {x : EStateM ε σ α} {f : α → EStateM ε σ β} {first rest : List γ}
    (hx : Follows view first s (x s))
    (hf : ∀ a t, x s = .ok a t → Follows view rest t (f a t)) :
    Follows view (first ++ rest) s ((x >>= f) s) := by
  rw [bind_apply]
  cases h : x s with
  | ok a t =>
    rw [h] at hx
    change view t = view s ++ first at hx
    have hft := hf a t h
    change Follows view (first ++ rest) s (f a t)
    cases hres : f a t with
    | ok b u =>
      rw [hres] at hft
      change view u = view t ++ rest at hft
      change view u = view s ++ (first ++ rest)
      rw [hft, hx, List.append_assoc]
    | error e u =>
      rw [hres] at hft
      obtain ⟨done, hdone, hu⟩ := hft
      exact ⟨first ++ done, List.prefix_append_right_inj _ |>.mpr hdone, by
        rw [hu, hx, List.append_assoc]⟩
  | error e t =>
    rw [h] at hx
    obtain ⟨done, hdone, ht⟩ := hx
    exact ⟨done, hdone.trans (List.prefix_append _ _), ht⟩

theorem cons {x : EStateM ε σ α} {f : α → EStateM ε σ β} {c : γ} {rest : List γ}
    (hx : Follows view [c] s (x s))
    (hf : ∀ a t, x s = .ok a t → Follows view rest t (f a t)) :
    Follows view (c :: rest) s ((x >>= f) s) := hx.bind hf

theorem of_keeps {x : EStateM ε σ α} (hx : Keeps (Same view) x) (s : σ) :
    Follows view [] s (x s) := of_same (hx s)

theorem bind_same {x : EStateM ε σ α} {f : α → EStateM ε σ β} {script : List γ}
    (hx : Follows view script s (x s)) (hf : ∀ a, Keeps (Same view) (f a)) :
    Follows view script s ((x >>= f) s) := by
  rw [← List.append_nil script]
  exact hx.bind fun a t _ => of_keeps (hf a) t

theorem same_bind {x : EStateM ε σ α} {f : α → EStateM ε σ β} {script : List γ}
    (hx : Keeps (Same view) x) (hf : ∀ a t, x s = .ok a t → Follows view script t (f a t)) :
    Follows view script s ((x >>= f) s) := (of_keeps hx s).bind hf

end Follows

end BootLoader
