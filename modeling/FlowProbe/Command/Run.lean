import FlowProbe.Command.Args
import FlowProbe.Replay
import FlowProbe.Settings.Document
import FlowProbe.Text.Utf8

/-! What the commands do.

A command sees the files of its surroundings as a function from paths to bytes. A file that
cannot be opened fails where it is opened, a directory where it is read. What was printed
before a failure stays printed. -/
namespace FlowProbe

/-- A line of output: a record, or text of the command's own. -/
inductive Printed where
  | record (r : Record)
  | text (line : String)
  deriving DecidableEq, Repr

def Printed.line : Printed → String
  | .record r => r.line
  | .text line => line

/-- What a command prints, the statistics that it adds, and how it ends. -/
structure Outcome where
  printed : List Printed := []
  stats : String := ""
  ending : Except ReplayFault Unit := .ok ()

/-- How files are read. -/
abbrev Files := String → Except ReadFault (List UInt8)

namespace Files

def settings (files : Files) (path : String) : Except ReplayFault Settings :=
  match files path with
  | .error cause => .error (.probe (.read cause))
  | .ok bytes =>
    match Utf8.decode bytes with
    | .error _ => .error (.probe (.read .notText))
    | .ok text =>
      match Settings.ofText text with
      | .error fault => .error (.probe fault)
      | .ok settings => .ok settings

/-- The lines of a file. A directory is a stream that fails at once. -/
def lines (files : Files) (path : String) : Except ReplayFault (List StreamLine) :=
  match files path with
  | .ok bytes => .ok ((Utf8.lines bytes).map StreamLine.ofBytes)
  | .error .isADirectory => .ok [.error .isADirectory]
  | .error cause => .error (.read cause)

end Files

def Settings.session (s : Settings) : Except ReplayFault Session :=
  match Session.ofSettings s with
  | .ok session => .ok session
  | .error fault => .error (.probe fault)

/-- What a replay shows, its statistics only if they are wanted. -/
def Replay.outcome (r : Replay) (stats : Bool) : Outcome :=
  let printed := r.records.map Printed.record
  match r.ending with
  | .ok last => { printed, stats := if stats then last.metrics.text else "" }
  | .error fault => { printed, ending := .error fault }

namespace Outcome

def failed (fault : ReplayFault) : Outcome := { ending := .error fault }

def ofExcept : Except ReplayFault Outcome → Outcome
  | .ok outcome => outcome
  | .error fault => failed fault

end Outcome

/-! ### Checking settings -/

/-- Text in a column that is `width` characters wide or wider. -/
def column (width : Nat) (text : String) : String :=
  text ++ String.ofList (List.replicate (width - text.length) ' ')

def Interface.summary (i : Interface) : String :=
  let kind := match InterfaceKind.ofName? i.name with
    | some kind => kind.label
    | none => "unclassified"
  "  " ++ column 12 i.name ++ " ifindex " ++ column 4 (toString i.index.toNat) ++ " " ++
    column 14 kind ++ " " ++ toString i.addresses.length ++ " addresses"

def Overlay.summary (o : Overlay) : String :=
  "  cni subnet: " ++ o.network.cidr ++ " on ifindex " ++ toString o.index.toNat

/-- What a check shows of settings that pass it. -/
def Settings.summary (s : Settings) (path : String) (table : InterfaceTable) : List String :=
  ["Configuration OK: " ++ path,
    "  flush interval: " ++ toString s.flushIntervalMs.toNat ++ " ms, output capacity: " ++
      toString s.outputCapacity.toNat,
    "  syscall threshold: " ++ toString s.thresholdMs.toNat ++ " ms, timeout: " ++
      toString s.timeoutMs.toNat ++ " ms",
    "  pod index retention: " ++ toString s.clearCycleMs.toNat ++ " ms"] ++
    s.interfaces.devices.map Interface.summary ++
    table.overlay.toList.map Overlay.summary

/-! ### Commands -/

namespace Command

def replayLines (files : Files) (stdin : List UInt8) (config : String) (input : Option String)
    (stats : Bool) : Except ReplayFault Outcome := do
  let settings ← files.settings config
  let lines ← match input with
    | some path => files.lines path
    | none => .ok ((Utf8.lines stdin).map StreamLine.ofBytes)
  let session ← settings.session
  return (session.replay lines).outcome stats

def replayDump (files : Files) (config input : String) (stats : Bool) :
    Except ReplayFault Outcome := do
  let settings ← files.settings config
  let bytes ← (files input).mapError ReplayFault.read
  let dump ← (RingDump.ofBytes bytes).mapError ReplayFault.probe
  let session ← settings.session
  let ring ← dump.ring.mapError ReplayFault.probe
  return (session.replayRing ring).outcome stats

def check (files : Files) (config : String) : Except ReplayFault Outcome := do
  let settings ← files.settings config
  let table ← settings.table.mapError ReplayFault.probe
  return { printed := (settings.summary config table).map Printed.text }

def run (files : Files) (stdin : List UInt8) : Command → Outcome
  | .replay config input stats => .ofExcept (replayLines files stdin config input stats)
  | .replayRing config input stats => .ofExcept (replayDump files config input stats)
  | .checkConfig config => .ofExcept (check files config)

/-- The files that a command reads. -/
def paths : Command → List String
  | .replay config input _ => config :: input.toList
  | .replayRing config input _ => [config, input]
  | .checkConfig config => [config]

/-- Whether a command reads standard input. -/
def readsInput : Command → Bool
  | .replay _ none _ => true
  | _ => false

end Command

end FlowProbe
