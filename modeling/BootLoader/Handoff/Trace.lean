import BootLoader.Handoff.MemoryMap

/-! A record of the hand-off for the serial line, written when the console is long gone. -/

namespace BootLoader.Handoff

open Text

/-- A word with as many digits as the record has room for. -/
def word (v : UInt64) : String := Hex.plain 18 v.toNat

def alignRight (width : Nat) (s : String) : String :=
  String.ofList (List.replicate (width - s.length) ' ') ++ s

def registerTexts (p : Platform) (params : HandoffParams) : List String :=
  (p.arch.registers.zip (params.args p.convention)).map fun (register, value) =>
    s!"  {alignRight 5 register} = {word value}\n"

def mapTexts (m : MemoryMapInfo) : List String :=
  [ s!" MMAP ptr = {word m.address.word}",
    s!", MMAP len = {m.layout.mapSize}",
    s!", MMAP desc size = {m.layout.descriptorSize}",
    s!", MMAP desc version = {m.layout.descriptorVersion}",
    s!", MMAP key = {Hex.marked m.key.word.toNat}\n" ]

def texts (p : Platform) (entry : Address) (params : HandoffParams)
    (memoryMap : Option MemoryMapInfo) : List String :=
  [ "Hand-off in UEFI loader:\n",
    s!"   arch = {p.name}, convention = {p.convention}\n",
    s!"  entry = {word entry.word}\n" ] ++
  registerTexts p params ++
  (memoryMap.map mapTexts).getD []

def trace (m : Machine) (p : Platform) (entry : Address) (params : HandoffParams)
    (memoryMap : Option MemoryMapInfo) : Machine :=
  (texts p entry params memoryMap).foldl Machine.trace m

end BootLoader.Handoff
