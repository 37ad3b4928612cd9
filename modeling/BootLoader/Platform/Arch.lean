import BootLoader.Platform.Convention
import BootLoader.Platform.Layout

/-! The instruction sets that there is a platform for. -/

namespace BootLoader

inductive Arch where
  | aarch64 | loongArch64 | riscV64
deriving DecidableEq, Inhabited

namespace Arch

def all : List Arch := [aarch64, loongArch64, riscV64]

def index : Arch → Nat
  | aarch64 => 0
  | loongArch64 => 1
  | riscV64 => 2

def name : Arch → String
  | aarch64 => "aarch64"
  | loongArch64 => "loongarch64"
  | riscV64 => "riscv64"

def ofName? (s : String) : Option Arch := all.find? (·.name == s)

def inspect : Arch → String
  | aarch64 => "Aarch64"
  | loongArch64 => "LoongArch64"
  | riscV64 => "RiscV64"

/-- What a loader is built for where nothing else is said: none of these, as a loader is that runs
on the machine of its developer. -/
def configured : Option Arch := none

def layout : Arch → Layout
  | aarch64 => .aarch64
  | loongArch64 => .loongArch64
  | riscV64 => .riscV64

def convention : Arch → Convention
  | aarch64 | riscV64 => .twoWord
  | loongArch64 => .threeWord

def registers : Arch → List String
  | aarch64 => ["x0", "x1", "x2"]
  | loongArch64 | riscV64 => ["a0", "a1", "a2"]

instance : ToString Arch := ⟨name⟩

end Arch

end BootLoader
