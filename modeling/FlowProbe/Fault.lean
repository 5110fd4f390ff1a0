import FlowProbe.Net.Subnet
import FlowProbe.Text.Utf8

/-! What can go wrong, and the wording of each cause.

`Fault` is a failure of the probe itself: of its settings, its interface table, its
decoders, or a file it reads. `ReplayFault` is a failure of a replay, which is a fault of
the probe, a line that is no event, or a stream that cannot be read. -/
namespace FlowProbe

/-- Which rule a set of settings breaks. -/
inductive SettingsFault where
  | flushInterval
  | outputCapacity
  | clearCycle
  | timeout (timeoutMs thresholdMs : UInt64)
  deriving DecidableEq, Repr

def SettingsFault.message : SettingsFault → String
  | .flushInterval => "flush_interval_ms must be greater than zero"
  | .outputCapacity => "output_capacity must be greater than zero"
  | .clearCycle => "pod_track.clear_cycle_ms must be greater than zero"
  | .timeout timeoutMs thresholdMs =>
    "syscall.timeout_ms (" ++ toString timeoutMs.toNat ++
      ") must not be below syscall.latency_threshold_ms (" ++ toString thresholdMs.toNat ++ ")"

/-- Why bytes cannot be had from a file or a stream. -/
inductive ReadFault where
  | notFound
  | notADirectory
  | isADirectory
  | nameTooLong
  /-- A file whose bytes are no text. -/
  | notText
  /-- A line whose bytes are no text. -/
  | line (cause : Utf8Fault)
  /-- Any other failure, in the words of the system. -/
  | system (reason : String)
  deriving DecidableEq, Repr

def ReadFault.message : ReadFault → String
  | .notFound => "No such file or directory (os error 2)"
  | .notADirectory => "Not a directory (os error 20)"
  | .isADirectory => "Is a directory (os error 21)"
  | .nameTooLong => "File name too long (os error 36)"
  | .notText => "stream did not contain valid UTF-8"
  | .line cause => cause.message
  | .system reason => reason

inductive Fault where
  | settings (cause : SettingsFault)
  | enumeration (reason : String)
  | subnet (text : String) (cause : SubnetFault)
  | size (expected actual : Nat)
  | missing (parameter : String)
  | cursor (head tail capacity : Nat)
  | focusTag (tag : UInt8)
  /-- Text that is no document of the expected shape. -/
  | document
  | read (cause : ReadFault)
  deriving DecidableEq, Repr

def Fault.message : Fault → String
  | .settings cause => "Configuration error: " ++ cause.message
  | .enumeration reason => "Interface enumeration failed: " ++ reason
  | .subnet text cause => "Invalid CNI subnet " ++ text ++ ": " ++ cause.message
  | .size expected actual =>
    "Malformed record: expected " ++ toString expected ++ " bytes, got " ++ toString actual
  | .missing parameter => "Missing event parameter: " ++ parameter
  | .cursor head tail capacity =>
    "Ring cursor out of range: head=" ++ toString head ++ ", tail=" ++
      toString tail ++ ", capacity=" ++ toString capacity
  | .focusTag tag => "Unknown focus pod operation: " ++ toString tag.toNat
  | .document => "YAML error"
  | .read cause => "IO error: " ++ cause.message

inductive ReplayFault where
  | probe (cause : Fault)
  | line (number : Nat)
  | read (cause : ReadFault)
  deriving DecidableEq, Repr

def ReplayFault.message : ReplayFault → String
  | .probe cause => "Agent error: " ++ cause.message
  | .line number => "Invalid capture event on line " ++ toString number
  | .read cause => "IO error: " ++ cause.message

end FlowProbe
