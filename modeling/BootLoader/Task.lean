import BootLoader.Log

/-!
Computations that work on a state and may fail half-way. What was done and said before the
failure stays. Nothing keeps hold of a state that has been worked on, so large memories change in
place, and a long row of computations runs as a loop.
-/

namespace BootLoader

/-- a state, and what was said on the way to it, newest first -/
structure Told (σ : Type) where
  said : List Line
  state : σ

def Task (σ ε α : Type) : Type := EStateM ε (Told σ) α

namespace Task

variable {σ ε ε' α : Type}

instance : Monad (Task σ ε) := inferInstanceAs (Monad (EStateM ε (Told σ)))

def run (x : Task σ ε α) (s : σ) : Logged ε α × σ :=
  match x ⟨[], s⟩ with
  | .ok a t => (⟨t.said.reverse, .ok a⟩, t.state)
  | .error e t => (⟨t.said.reverse, .error e⟩, t.state)

@[inline] def ofExcept (r : Except ε α) : Task σ ε α := fun t =>
  match r with
  | .ok a => .ok a t
  | .error e => .error e t

instance : MonadLift (Except ε) (Task σ ε) := ⟨ofExcept⟩

def fail (e : ε) : Task σ ε α := fun t => .error e t

@[inline] def say (line : Line) : Task σ ε Unit := fun ⟨said, s⟩ => .ok () ⟨line :: said, s⟩

/-- A silent change of the state, with its errors made the computation's. -/
@[inline] def update (wrap : ε' → ε) (f : σ → Except ε' α × σ) : Task σ ε α := fun ⟨said, s⟩ =>
  match f s with
  | (.ok a, s) => .ok a ⟨said, s⟩
  | (.error e, s) => .error (wrap e) ⟨said, s⟩

theorem bind_ok {β : Type} {x : Task σ ε α} {f : α → Task σ ε β} {t t' : Told σ} {a : α}
    (h : x t = .ok a t') : (x >>= f) t = f a t' := by
  show EStateM.bind x f t = _
  simp only [EStateM.bind, h]

theorem bind_error {β : Type} {x : Task σ ε α} {f : α → Task σ ε β} {t t' : Told σ} {e : ε}
    (h : x t = .error e t') : (x >>= f) t = .error e t' := by
  show EStateM.bind x f t = _
  simp only [EStateM.bind, h]

end Task

end BootLoader
