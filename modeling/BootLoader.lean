import BootLoader.Build.Script
import BootLoader.Firmware.Scripted
import BootLoader.Memory.Dump
import BootLoader.Proofs.Computation
import BootLoader.Proofs.Handoff.Placement
import BootLoader.Proofs.Handoff.Setting
import BootLoader.Proofs.Handoff.Step
import BootLoader.Proofs.Pe.Effect
import BootLoader.Proofs.Platform.Clear
import BootLoader.Uefi.Application
import BootLoader.Proofs.Handoff.Integrity
import BootLoader.Proofs.Handoff.Exit
import BootLoader.Proofs.Machine.Marks
import BootLoader.Proofs.Handoff.Order
import BootLoader.Proofs.Handoff.Untouched
import BootLoader.Proofs.Pe.Load
import BootLoader.Proofs.Acpi.Chain
import BootLoader.Proofs.Acpi.Links
import BootLoader.Proofs.Acpi.Walk
import BootLoader.Proofs.Machine.Muted
import BootLoader.Proofs.Handoff.Diagnostics
import BootLoader.Proofs.Handoff.Forgiving
import BootLoader.Proofs.Handoff.SerialLine
import BootLoader.Proofs.Handoff.Reveals
import BootLoader.Proofs.Handoff.Beside
import BootLoader.Proofs.Handoff.Companion
import BootLoader.Proofs.Handoff.Context
import BootLoader.Proofs.Pe.Entry
import BootLoader.Proofs.Handoff.Gains
import BootLoader.Proofs.Handoff.Failures
import BootLoader.Proofs.Handoff.Reached
import BootLoader.Proofs.Handoff.Handover
import BootLoader.Proofs.Handoff.Configuration
import BootLoader.Proofs.Uefi.Demands
import BootLoader.Proofs.Uefi.Quiescence
import BootLoader.Proofs.Memory.Fill
import BootLoader.Proofs.Platform.Zeroing
import BootLoader.Proofs.Pe.Records
import BootLoader.Proofs.Pe.Headers
import BootLoader.Proofs.Pe.HeaderBytes
import BootLoader.Proofs.Pe.Footprint
import BootLoader.Proofs.Handoff.Margin
import BootLoader.Proofs.Acpi.Search
import BootLoader.Proofs.Acpi.Corruption
import BootLoader.Proofs.Build.Layout
import BootLoader.Proofs.Machine.SerialText
import BootLoader.Proofs.Acpi.HexDump
import BootLoader.Proofs.Machine.BootHart
import BootLoader.Proofs.Handoff.Binding
import BootLoader.Proofs.Memory.Overlap
import BootLoader.Proofs.Memory.Accesses
import BootLoader.Proofs.Lossless
import BootLoader.Proofs.Uefi.RoundTrip
