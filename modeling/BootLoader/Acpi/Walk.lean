import BootLoader.Acpi.FixedTable
import BootLoader.Acpi.HexDump
import BootLoader.Acpi.RootTable

/-!
The walk from the published tables to the byte code: root pointer, table of tables, fixed
description table, table of byte code. It stops at the first link that does not hold.
-/

namespace BootLoader.Acpi

open Text

structure Report where
  root : RootPointer
  tables : RootTable
  fixed : FixedTable
  payload : AmlTable
  deviceTree : Option Address
deriving DecidableEq

def walkLine (text : String) : Line := ⟨.info, "boot_acpi::walk", text⟩

def RootPointer.describe (r : RootPointer) : List Line :=
  [ walkLine s!"RSDP address: {r.address}, revision {r.revision}, OEM {r.oemId}",
    walkLine (if r.usesXsdt then s!"XSDT address: {Hex.marked (r.xsdt.getD 0).toNat}"
      else s!"RSDT address: {Hex.marked r.rsdt.toNat}") ]

def AmlTable.describe (t : AmlTable) : List Line :=
  let h := t.table.header
  [ walkLine s!"DSDT signature: {h.signature}",
    walkLine s!"DSDT length: {h.length}",
    walkLine s!"DSDT revision: {h.revision}",
    walkLine (t.table.checksumText "DSDT"),
    walkLine s!"DSDT code size: {t.codeSize}" ]

def walk {μ : Type} [Mapping μ] (m : μ) (entries : List ConfigEntry) :
    Logged WalkError Report := do
  let deviceTree := ConfigEntry.deviceTree? entries
  if let some a := deviceTree then .say (walkLine s!"EFI DTB table address: {a}")
  let root ← RootPointer.locate m entries
  .sayAll root.describe
  let tables ← RootTable.resolve m root
  .sayAll (tables.table.describe tables.width.signature.render)
  .say (walkLine s!"{tables.count} entries")
  let fixed ← FixedTable.ofTable (← tables.find m .facp)
  .say (walkLine s!"FADT address: {fixed.table.address}")
  let payload ← fixed.follow m
  .sayAll payload.describe
  return ⟨root, tables, fixed, payload, deviceTree⟩

end BootLoader.Acpi
