/-! How a payload is entered: which words it finds in the argument registers. -/

namespace BootLoader

inductive Convention where
  /-- no arguments -/
  | direct
  /-- processor and context -/
  | twoWord
  /-- processor, context and system table -/
  | threeWord
deriving DecidableEq, Inhabited

namespace Convention

def render : Convention → String
  | direct => "direct"
  | twoWord => "two-word"
  | threeWord => "three-word"

def inspect : Convention → String
  | direct => "Direct"
  | twoWord => "TwoWord"
  | threeWord => "ThreeWord"

def argCount : Convention → Nat
  | direct => 0
  | twoWord => 2
  | threeWord => 3

instance : ToString Convention := ⟨render⟩

end Convention

structure HandoffParams where
  cpu : UInt64
  /-- the device tree or the root pointer, else zero -/
  context : UInt64
  secondary : UInt64
deriving DecidableEq, Inhabited

namespace HandoffParams

def words (p : HandoffParams) : List UInt64 := [p.cpu, p.context, p.secondary]

def args (p : HandoffParams) (c : Convention) : List UInt64 := p.words.take c.argCount

end HandoffParams

end BootLoader
