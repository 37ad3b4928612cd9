import BootLoader.Memory.Address

/-! The tables a firmware publishes, by identifier and address. -/

namespace BootLoader.Acpi

inductive EntryKind where
  | acpi1 | acpi2 | deviceTree | other
deriving DecidableEq, Inhabited

def EntryKind.inspect : EntryKind → String
  | acpi1 => "Acpi1"
  | acpi2 => "Acpi2"
  | deviceTree => "DeviceTree"
  | other => "Other"

structure ConfigEntry where
  kind : EntryKind
  address : Address
deriving DecidableEq, Inhabited

namespace ConfigEntry

def firstOf (kind : EntryKind) (entries : List ConfigEntry) : Option ConfigEntry :=
  entries.find? (·.kind == kind)

/-- The root pointer's entry. The newer kind wins wherever it stands in the list. -/
def root? (entries : List ConfigEntry) : Option ConfigEntry :=
  (firstOf .acpi2 entries).or (firstOf .acpi1 entries)

def deviceTree? (entries : List ConfigEntry) : Option Address :=
  (firstOf .deviceTree entries).map (·.address)

end ConfigEntry

end BootLoader.Acpi
