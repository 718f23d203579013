import HomCircuit.Report.Graph
import HomCircuit.Backend.Inventory

/-!
# HomCircuit.Report.Device

Devices, allocations and transfer counters as JSON reports.

* `Inventory.report` — the devices of an inventory and what they hold;
* `TransferCounters.report`, `DeviceHandle.report`, `DeviceHandle.ofReport?`;
* `deviceList?` — devices described one by one.
-/

namespace HomCircuit

/-- An allocation by device, number and size. -/
def DeviceHandle.report (h : DeviceHandle) : Json :=
  .record [("device", .nat h.device.index.toNat), ("slot", .nat h.slot), ("words", .nat h.words),
    ("bytes", .nat h.bytes)]

/-- The allocation that members describe. -/
def DeviceHandle.ofReport? (j : Json) : Option DeviceHandle := do
  some ⟨⟨← j.field "device" Json.word32?⟩, ← j.field "slot" Json.nat?, ← j.field "words" Json.nat?⟩

/-- All transfer counters. -/
def TransferCounters.report (n : TransferCounters) : Json :=
  .record [("uploads", .nat n.uploads), ("downloads", .nat n.downloads),
    ("bytes_to_device", .nat n.bytesToDevice), ("bytes_to_host", .nat n.bytesToHost),
    ("executions", .nat n.executions), ("cpu_fallbacks", .nat n.fallbacks)]

/-- A device and what it holds. -/
def Device.report (d : Device) : Json :=
  .record [("id", .text d.id.label), ("name", .text d.name), ("load", .nat d.usedBytes),
    ("allocations", .nat d.allocations), ("capacity", .ofNat d.capacity)]

/-- The devices of an inventory. -/
def Inventory.report (v : Inventory) : Json := .list Device.report v.devices.toList

/-- Devices described one by one; a device without number has that of its place. -/
def deviceList? (j : Json) : Option (List Device) := do
  (← j.items?).zipIdx.mapM fun (d, i) => do
    some
      { id := ⟨← d.withDefault "id" Json.word32? (UInt32.ofNat i)⟩
        capacity := ← d.field "capacity" Json.nat?
        faulted := ← d.withDefault "faulted" Json.bool? false }

/-- Where a payload is: on the host, or on a device. -/
def Payload.place : Payload → String
  | .host _ => "host"
  | .device r => r.handle.device.label

end HomCircuit
