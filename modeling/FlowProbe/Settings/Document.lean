import FlowProbe.Fault
import FlowProbe.Settings.Basic
import FlowProbe.Text.Yaml.Alias
import FlowProbe.Text.Yaml.Reader

/-! Settings as a YAML document.

Every mapping may hold members that are not settings. `Settings.ofText` reads a document and
checks the settings in it. -/
namespace FlowProbe

open Yaml (Node Shape)

def Interface.ofYaml? (n : Node) : Option Interface := do
  let fs ← n.fields?
  let name ← fs.required "name" Node.text?
  let index ← fs.required "ifindex" Node.u32?
  let addresses ← fs.defaulted "addrs" [] (Node.list? Node.ipv4?)
  return { name, index, addresses }

def Interface.shape : Shape :=
  .fields [("name", .scalar), ("ifindex", .scalar), ("addrs", .list .scalar)]

def InterfaceSettings.ofYaml? (n : Node) : Option InterfaceSettings := do
  let fs ← n.fields?
  let devices ← fs.defaulted "devices" [] (Node.list? Interface.ofYaml?)
  let overlay ← fs.defaulted "cni_subnet" none (Node.option? Node.text?)
  let overlayIndex ← fs.defaulted "cni_ifindex" none (Node.option? Node.u32?)
  return { devices, overlay, overlayIndex }

def InterfaceSettings.shape : Shape :=
  .fields [("devices", .list Interface.shape), ("cni_subnet", .scalar), ("cni_ifindex", .scalar)]

namespace Settings

/-- What is set where a document says nothing. -/
def defaults : Settings := { thresholdMs := 0, timeoutMs := 0 }

/-- How long tracked paths are kept, in milliseconds. -/
def clearCycleMs? (n : Node) : Option UInt64 := do
  let fs ← n.fields?
  fs.defaulted "clear_cycle_ms" defaults.clearCycleMs Node.u64?

/-- The threshold and the timeout of system calls, in milliseconds. -/
def syscallLimits? (n : Node) : Option (UInt64 × UInt64) := do
  let fs ← n.fields?
  let threshold ← fs.required "latency_threshold_ms" Node.u64?
  let timeout ← fs.required "timeout_ms" Node.u64?
  return (threshold, timeout)

def ofYaml? (n : Node) : Option Settings := do
  let fs ← n.fields?
  let flushIntervalMs ← fs.defaulted "flush_interval_ms" defaults.flushIntervalMs Node.u64?
  let outputCapacity ← fs.defaulted "output_capacity" defaults.outputCapacity Node.u64?
  let clearCycleMs ← fs.defaulted "pod_track" defaults.clearCycleMs clearCycleMs?
  let (thresholdMs, timeoutMs) ← fs.required "syscall" syscallLimits?
  let interfaces ← fs.defaulted "interfaces" {} InterfaceSettings.ofYaml?
  return {
    flushIntervalMs
    outputCapacity
    clearCycleMs
    thresholdMs
    timeoutMs
    interfaces }

/-- Where settings stand in a document. -/
def shape : Shape :=
  .fields
    [("flush_interval_ms", .scalar), ("output_capacity", .scalar),
      ("pod_track", .fields [("clear_cycle_ms", .scalar)]),
      ("syscall", .fields [("latency_threshold_ms", .scalar), ("timeout_ms", .scalar)]),
      ("interfaces", InterfaceSettings.shape)]

/-- The settings in a document, if they break no rule. -/
def ofText (text : String) : Except Fault Settings :=
  let document := (Yaml.ofText? text.toList).filter fun n => n.isBounded shape
  match document.bind ofYaml? with
  | some s => s.check
  | none => .error .document

end Settings

end FlowProbe
