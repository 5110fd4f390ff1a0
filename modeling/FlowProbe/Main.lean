import FlowProbe.Command.Run

/-! The program: it reads what the command needs, runs it and prints what it shows. -/
namespace FlowProbe.Program

def usage : String :=
  "\n".intercalate
    ["Usage: podlens [-v] <COMMAND>", "", "Commands:",
      "  replay        -c <CONFIG> [-i <INPUT>] [--stats]",
      "  replay-ring   -c <CONFIG> -i <INPUT> [--stats]",
      "  check-config  -c <CONFIG>",
      "  help          [COMMAND]"]

/-- The code that the system gives when a directory is read. -/
def directoryCode : UInt32 := 21

/-- The code that the system gives for a name that is too long, also with its sign changed. -/
def longNameCode : UInt32 := 36

def readFault : IO.Error → ReadFault
  | .noFileOrDirectory .. => .notFound
  | .inappropriateType _ code _ =>
    if code = directoryCode then .isADirectory else .notADirectory
  | .invalidArgument filename code details =>
    if code = longNameCode || code = -longNameCode then .nameTooLong
    else .system (toString (IO.Error.invalidArgument filename code details))
  | e => .system (toString e)

def readFile (path : String) : IO (Except ReadFault (List UInt8)) := do
  try
    let bytes ← IO.FS.readBinFile path
    return .ok bytes.toList
  catch e => return .error (readFault e)

/-- All bytes of a stream behind those that were read before. -/
partial def readAll (stream : IO.FS.Stream) (before : ByteArray) : IO ByteArray := do
  let bytes ← stream.read 65536
  if bytes.isEmpty then return before else readAll stream (before ++ bytes)

def answer (fault : UsageFault) : IO UInt32 :=
  match fault with
  | .help => do
    IO.println usage
    return 0
  | .version => do
    IO.println "podlens 0.1.0"
    return 0
  | .noCommand => do
    IO.eprintln "No command specified. Use --help for usage information."
    return 1
  | _ => do
    IO.eprintln usage
    return 2

def execute (command : Command) : IO UInt32 := do
  let files ← command.paths.mapM fun path => return (path, ← readFile path)
  let stdin ← if command.readsInput then readAll (← IO.getStdin) .empty else pure .empty
  let find : Files := fun path => (files.lookup path).getD (.error .notFound)
  let outcome := command.run find stdin.toList
  for line in outcome.printed do
    IO.println line.line
  IO.eprint outcome.stats
  match outcome.ending with
  | .ok () => return 0
  | .error fault =>
    IO.eprintln ("Error: " ++ fault.message)
    return 1

end FlowProbe.Program

def main (args : List String) : IO UInt32 :=
  match FlowProbe.Invocation.ofWords args with
  | .ok invocation => FlowProbe.Program.execute invocation.command
  | .error fault => FlowProbe.Program.answer fault
