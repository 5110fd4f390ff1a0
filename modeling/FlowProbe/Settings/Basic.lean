import FlowProbe.Net.Interfaces
import FlowProbe.Time.Nanos

/-! The settings of a probe.

Spans are given in milliseconds. The flush interval, the output capacity and the retention
of tracked paths have defaults, the two limits on system calls have none. `check` names the
first rule that a set of settings breaks. Interfaces are declared and not enumerated here;
the overlay's notation is read only when the interface table is built. -/
namespace FlowProbe

structure InterfaceSettings where
  devices : List Interface := []
  overlay : Option String := none
  overlayIndex : Option UInt32 := none
  deriving DecidableEq, Repr, Inhabited

/-- The declaration as an enumeration of interfaces. -/
def InterfaceSettings.source (s : InterfaceSettings) : InterfaceSource :=
  { interfaces := .ok s.devices
    overlay := match s.overlay with
      | some text => (Overlay.ofCidr text (s.overlayIndex.getD 0)).map some
      | none => .ok none }

structure Settings where
  flushIntervalMs : UInt64 := 5000
  outputCapacity : UInt64 := 1024
  clearCycleMs : UInt64 := 10000
  thresholdMs : UInt64
  timeoutMs : UInt64
  interfaces : InterfaceSettings := {}
  deriving DecidableEq, Repr

namespace Settings

def flushInterval (s : Settings) : Nanos := Nanos.ofMillis s.flushIntervalMs

def clearCycle (s : Settings) : Nanos := Nanos.ofMillis s.clearCycleMs

def threshold (s : Settings) : Nanos := Nanos.ofMillis s.thresholdMs

def timeout (s : Settings) : Nanos := Nanos.ofMillis s.timeoutMs

/-- The settings, if they break no rule. -/
def check (s : Settings) : Except Fault Settings :=
  if s.flushIntervalMs = 0 then .error (.settings .flushInterval)
  else if s.outputCapacity = 0 then .error (.settings .outputCapacity)
  else if s.clearCycleMs = 0 then .error (.settings .clearCycle)
  else if s.timeoutMs < s.thresholdMs then .error (.settings (.timeout s.timeoutMs s.thresholdMs))
  else .ok s

def table (s : Settings) : Except Fault InterfaceTable := InterfaceTable.build s.interfaces.source

end Settings

end FlowProbe
