import BootLoader.Memory.Mapping
import BootLoader.Platform.Basic
import BootLoader.Task

/-!
Zeroing what a platform plans to have zeroed. The whole plan is held against the protected regions
before the first byte is written; after that, every region is written and read back in turn.
-/

namespace BootLoader.Platform

/-- The first planned region that meets a protected one, with the first that it meets. They are
compared as `translate` gives them. -/
def conflictBy? (translate : Region → Region) (protectedRegions plan : List Region) :
    Option (Region × Region) :=
  plan.findSome? fun r =>
    (protectedRegions.find? fun q => (translate q).overlaps (translate r)).map fun q => (r, q)

def conflict? (p : Platform) (protectedRegions : List Region) (plan : List Region) :
    Option (Region × Region) :=
  conflictBy? p.toPhysical protectedRegions plan

variable {μ : Type} [Mapping μ]

/-- Zero one region and read it back. -/
def zero (r : Region) : Task μ PlatformError Unit := do
  .update .memory fun m => Mapping.fill m r 0
  .update .memory fun m => (Mapping.verify m r 0, m)

/-- Zero the regions one after the other; `cleared` bytes came before. -/
def zeroAll (phase : ClearPhase) (cleared : Nat) : List Region → Task μ PlatformError Nat
  | [] => return cleared
  | r :: rs => do
    .say ⟨.info, "boot_arch::clear", s!"Clearing {r} ({phase.inspect})"⟩
    zero r
    zeroAll phase (cleared + r.len) rs

/-- Carry out a plan, unless it meets a protected region; how many bytes that was. -/
def clearBy (translate : Region → Region) (phase : ClearPhase) (protectedRegions plan : List Region) :
    Task μ PlatformError Nat :=
  match conflictBy? translate protectedRegions plan with
  | some (region, hit) => .fail (.unsafeClear region hit)
  | none => zeroAll phase 0 plan

def clear (p : Platform) (phase : ClearPhase) (protectedRegions : List Region) :
    Task μ PlatformError Nat :=
  clearBy p.toPhysical phase protectedRegions (p.clearPlan phase)

end BootLoader.Platform
