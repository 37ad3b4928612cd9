import BootLoader.Machine.World

/-! The one platform that a machine is bound to: set once, read from then on. -/

namespace BootLoader.Host

variable {φ : Type}

/-- Bind the machine to a platform. Once it is bound, only that very platform is accepted. -/
def publish [Console φ] (p : Platform) : Host φ PlatformError Unit := do
  match (← get).machine.bound with
  | none =>
    onMachine ({ · with bound := some p })
    say ⟨.debug, "boot_arch::binding", s!"Bound architecture descriptor {p.arch}"⟩
  | some current =>
    if current.id = p.id then return
    else throw (.alreadyBound current.arch p.arch)

def active : Host φ PlatformError Platform := do
  match (← get).machine.bound with
  | some p => return p
  | none => throw .unbound

end BootLoader.Host
