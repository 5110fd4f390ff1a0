/-! The command line.

An invocation is flags, the name of a command and the options of that command. An option is
written in full (`--config c.yaml`, `--config=c.yaml`) or by its letter (`-c c.yaml`,
`-cc.yaml`, `-c=c.yaml`), and letters of flags may stand together. Every option may be given
once. A value that stands in a word of its own is settled by the next option or at the end, so
its faults show only then. -/
namespace FlowProbe

/-- Why an invocation is refused, or answered without a command. -/
inductive UsageFault where
  | help
  | version
  | noCommand
  | unknownCommand
  | unknownArgument
  | missingValue
  /-- A value for a flag. -/
  | excessValue
  | repeatedArgument
  | missingArgument
  deriving DecidableEq, Repr

inductive Command where
  | replay (config : String) (input : Option String) (stats : Bool)
  | replayRing (config input : String) (stats : Bool)
  | checkConfig (config : String)
  deriving DecidableEq, Repr

structure Invocation where
  verbose : Bool
  command : Command
  deriving DecidableEq, Repr

inductive OptionKey where
  | config
  | input
  | stats
  | verbose
  | help
  | version
  deriving DecidableEq, Repr

namespace OptionKey

def takesValue : OptionKey → Bool
  | .config => true
  | .input => true
  | _ => false

def name : OptionKey → String
  | .config => "config"
  | .input => "input"
  | .stats => "stats"
  | .verbose => "verbose"
  | .help => "help"
  | .version => "version"

def letter? : OptionKey → Option Char
  | .config => some 'c'
  | .input => some 'i'
  | .stats => none
  | .verbose => some 'v'
  | .help => some 'h'
  | .version => some 'V'

end OptionKey

/-- The commands by name. -/
inductive CommandName where
  | replay
  | replayRing
  | checkConfig
  | help
  deriving DecidableEq, Repr

namespace CommandName

def ofWord? (word : String) : Option CommandName :=
  [("replay", CommandName.replay), ("replay-ring", .replayRing), ("check-config", .checkConfig),
    ("help", .help)].lookup word

/-- The options that may follow the name. -/
def options : CommandName → List OptionKey
  | .replay => [.config, .input, .stats, .verbose, .help]
  | .replayRing => [.config, .input, .stats, .verbose, .help]
  | .checkConfig => [.config, .verbose, .help]
  | .help => []

end CommandName

/-- The options that may stand before the name of a command. -/
def leadingOptions : List OptionKey := [.verbose, .help, .version]

/-- The options read so far. -/
structure Given where
  flags : List OptionKey := []
  values : List (OptionKey × String) := []
  /-- The last option, as long as its value is not settled. -/
  pending : Option (OptionKey × Option String) := none
  deriving Repr

namespace Given

def put (g : Given) (key : OptionKey) (value : String) : Except UsageFault Given :=
  if (g.values.lookup key).isSome then .error .repeatedArgument
  else if value = "" then .error .missingValue
  else .ok { g with values := g.values ++ [(key, value)] }

/-- Settles the value of the last option. -/
def settle (g : Given) : Except UsageFault Given :=
  match g.pending with
  | none => .ok g
  | some (_, none) => .error .missingValue
  | some (key, some value) => { g with pending := none }.put key value

def addFlag (key : OptionKey) (g : Given) : Except UsageFault Given :=
  match key with
  | .help => .error .help
  | .version => .error .version
  | key =>
    if g.flags.contains key then .error .repeatedArgument
    else .ok { g with flags := key :: g.flags }

/-- Takes in an option and the value that is attached to it. -/
def take (g : Given) (key : OptionKey) (attached : Option String) : Except UsageFault Given :=
  match key.takesValue, attached with
  | true, some value => g.settle.bind fun g => g.put key value
  | true, none => g.settle.map fun g => { g with pending := some (key, none) }
  | false, some _ => .error .excessValue
  | false, none => g.settle.bind (addFlag key)

/-- Takes in a word that starts with two dashes. -/
def takeLong (options : List OptionKey) (g : Given) (word : List Char) :
    Except UsageFault Given :=
  let (name, rest) := word.span (· != '=')
  match options.find? fun key => key.name.toList = name with
  | none => .error .unknownArgument
  | some key =>
    match rest with
    | [] => g.take key none
    | _ :: value => g.take key (some (String.ofList value))

/-- Takes in the letters behind one dash. What follows the letter of an option is its value. -/
def takeLetters (options : List OptionKey) (g : Given) : List Char → Except UsageFault Given
  | [] => .ok g
  | c :: rest =>
    match options.find? fun key => key.letter? = some c with
    | none => .error .unknownArgument
    | some key =>
      if key.takesValue then
        match rest with
        | [] => g.take key none
        | '=' :: value => g.take key (some (String.ofList value))
        | value => g.take key (some (String.ofList value))
      else (g.take key none).bind fun g => g.takeLetters options rest

def has (g : Given) (key : OptionKey) : Bool := g.flags.contains key

def value? (g : Given) (key : OptionKey) : Option String := g.values.lookup key

/-- The value of an option that must be given. -/
def value (g : Given) (key : OptionKey) : Except UsageFault String :=
  match g.value? key with
  | some value => .ok value
  | none => .error .missingArgument

end Given

/-- What the shape of a word makes of it. -/
inductive Word where
  /-- Two dashes alone: no option follows. -/
  | stop
  | long (text : List Char)
  | letters (text : List Char)
  | plain
  deriving Repr

def Word.of (word : String) : Word :=
  match word.toList with
  | ['-', '-'] => .stop
  | '-' :: '-' :: text => .long text
  | '-' :: c :: text => .letters (c :: text)
  | _ => .plain

/-- Reads the options of a command. -/
def readOptions (options : List OptionKey) (g : Given) : List String → Except UsageFault Given
  | [] => g.settle
  | word :: rest =>
    match Word.of word with
    | .stop => if rest = [] then g.settle else .error .unknownArgument
    | .long text => (g.takeLong options text).bind fun g => readOptions options g rest
    | .letters text => (g.takeLetters options text).bind fun g => readOptions options g rest
    | .plain =>
      match g.pending with
      | some (key, none) => readOptions options { g with pending := some (key, some word) } rest
      | _ => .error .unknownArgument

/-- Answers a call for help, which may name one command. -/
def helpFault : List String → UsageFault
  | [] => .help
  | [word] => if (CommandName.ofWord? word).isSome then .help else .unknownCommand
  | _ => .unknownCommand

/-- Reads the options of a command and what it demands of them. -/
def readCommand (name : CommandName) (words : List String) :
    Except UsageFault (Given × Command) := do
  match name with
  | .help => throw (helpFault words)
  | .replay =>
    let g ← readOptions name.options {} words
    let config ← g.value .config
    return (g, .replay config (g.value? .input) (g.has .stats))
  | .replayRing =>
    let g ← readOptions name.options {} words
    let config ← g.value .config
    let input ← g.value .input
    return (g, .replayRing config input (g.has .stats))
  | .checkConfig =>
    let g ← readOptions name.options {} words
    let config ← g.value .config
    return (g, .checkConfig config)

namespace Invocation

/-- Reads flags up to the name of a command, then the command. -/
def readFrom (g : Given) : List String → Except UsageFault Invocation
  | [] => .error .noCommand
  | word :: rest =>
    match CommandName.ofWord? word with
    | some name =>
      (readCommand name rest).map fun (own, command) =>
        { verbose := g.has .verbose || own.has .verbose, command }
    | none =>
      match Word.of word with
      | .stop =>
        match rest with
        | [] => .error .noCommand
        | next :: _ =>
          if (CommandName.ofWord? next).isSome then .error .unknownArgument
          else .error .unknownCommand
      | .long text => (g.takeLong leadingOptions text).bind fun g => readFrom g rest
      | .letters text => (g.takeLetters leadingOptions text).bind fun g => readFrom g rest
      | .plain => .error .unknownCommand

/-- The invocation that the words of a command line make. -/
def ofWords (words : List String) : Except UsageFault Invocation := readFrom {} words

end Invocation

end FlowProbe
