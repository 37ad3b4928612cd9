/-!
Log lines, and computations that leave lines behind: a `Logged` value is what a computation said
together with how it ended. What was said before a failure stays said.
-/

namespace BootLoader

/-- how much a line matters, most first -/
inductive Level where
  | error | warn | info | debug | trace
deriving DecidableEq, Inhabited

namespace Level

def name : Level → String
  | error => "ERROR"
  | warn => "WARN"
  | info => "INFO"
  | debug => "DEBUG"
  | trace => "TRACE"

def all : List Level := [error, warn, info, debug, trace]

def ofName? (s : String) : Option Level :=
  all.find? fun l => l.name.toList == s.toList.map Char.toUpper

/-- Position in the order of importance, from 1 on; a threshold of 0 lets nothing through. -/
def rank : Level → Nat
  | error => 1
  | warn => 2
  | info => 3
  | debug => 4
  | trace => 5

end Level

structure Line where
  level : Level
  component : String
  text : String
deriving DecidableEq, Inhabited

structure Logged (ε α : Type) where
  lines : List Line
  result : Except ε α

namespace Logged

variable {ε α β : Type}

def say (line : Line) : Logged ε Unit := ⟨[line], .ok ()⟩

def sayAll (lines : List Line) : Logged ε Unit := ⟨lines, .ok ()⟩

def ofExcept (r : Except ε α) : Logged ε α := ⟨[], r⟩

/-- The second computation runs only if the first succeeded. -/
def andThen (x : Logged ε α) (f : α → Logged ε β) : Logged ε β :=
  match x.result with
  | .ok a => ⟨x.lines ++ (f a).lines, (f a).result⟩
  | .error e => ⟨x.lines, .error e⟩

instance : Monad (Logged ε) where
  pure a := ⟨[], .ok a⟩
  bind := andThen

instance : MonadExceptOf ε (Logged ε) where
  throw e := ⟨[], .error e⟩
  tryCatch x f :=
    match x.result with
    | .ok _ => x
    | .error e => ⟨x.lines ++ (f e).lines, (f e).result⟩

instance : MonadLift (Except ε) (Logged ε) := ⟨ofExcept⟩

/-- The lines do not change the result. -/
theorem result_bind (x : Logged ε α) (f : α → Logged ε β) :
    (x >>= f).result = x.result >>= fun a => (f a).result := by
  cases x with
  | mk ls r => cases r <;> rfl

end Logged

end BootLoader
