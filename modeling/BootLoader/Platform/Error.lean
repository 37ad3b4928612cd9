import BootLoader.Memory.Error
import BootLoader.Memory.Region
import BootLoader.Platform.Arch

/-! What a platform refuses to do or cannot do. -/

namespace BootLoader

inductive PlatformError where
  | unbound
  | alreadyBound (current requested : Arch)
  | foreignTarget (arch : Arch)
  | bootCpuUnavailable
  | unsafeClear (region protectedRegion : Region)
  | memory (cause : MemoryError)
deriving DecidableEq

namespace PlatformError

def kind : PlatformError → String
  | unbound => "Unbound"
  | alreadyBound .. => "AlreadyBound"
  | foreignTarget _ => "ForeignTarget"
  | bootCpuUnavailable => "BootCpuUnavailable"
  | unsafeClear .. => "UnsafeClear"
  | memory e => "Memory." ++ e.kind

def message : PlatformError → String
  | unbound => "no architecture descriptor is bound"
  | alreadyBound current requested =>
    s!"architecture descriptor {current} is already bound, refusing {requested}"
  | foreignTarget arch => s!"{arch} hardware access is not available on this target"
  | bootCpuUnavailable => "the boot CPU id could not be determined"
  | unsafeClear region protectedRegion =>
    s!"refusing to clear {region}: overlaps protected {protectedRegion}"
  | memory cause => cause.message

end PlatformError

end BootLoader
