import FlowProbe.Keyed
import FlowProbe.Text.Double

/-! What an analyzer counts about itself, and the text that shows it.

Loss is expected in a capture, so it is counted and not reported as a failure. `Metrics`
holds one `Counters` for each analyzer's name; its exposition lists every counter for every
name in the names' order, in the text format that scrapers read. Counting itself has no
limit: what a reader gets is a word of 64 bits (`CounterFamily.value`), and in the
exposition that word passes through a double on the way. -/
namespace FlowProbe

structure Counters where
  /-- Events that the analyzer admitted. -/
  ingested : Nat := 0
  /-- Events without the counterpart they needed. -/
  unmatched : Nat := 0
  /-- Records written to an output. -/
  emitted : Nat := 0
  /-- Records left for later because an output was full, counted at every flush. -/
  truncated : Nat := 0
  deriving DecidableEq, Repr, Inhabited

namespace Counters

def ingest (c : Counters) : Counters := { c with ingested := c.ingested + 1 }

def miss (c : Counters) (n : Nat) : Counters := { c with unmatched := c.unmatched + n }

/-- Books a flush that wrote `written` records and left `left` behind. -/
def flush (c : Counters) (written left : Nat) : Counters :=
  { c with emitted := c.emitted + written, truncated := c.truncated + left }

end Counters

/-- A counter of every analyzer, under the name and the help it is published with. -/
structure CounterFamily where
  name : String
  help : String
  read : Counters → Nat

namespace CounterFamily

def all : List CounterFamily :=
  [⟨"podlens_events_ingested_total", "Events admitted by an analyzer", Counters.ingested⟩,
    ⟨"podlens_events_unmatched_total", "Events dropped for lack of a matching counterpart",
      Counters.unmatched⟩,
    ⟨"podlens_records_emitted_total", "Telemetry records written to the output buffer",
      Counters.emitted⟩,
    ⟨"podlens_records_truncated_total",
      "Pending records left for the next cycle because the output buffer was full",
      Counters.truncated⟩]

/-- What a reader gets of a counter: a word, which starts again at zero past its end. -/
def value (f : CounterFamily) (c : Counters) : UInt64 := .ofNat (f.read c)

/-- A label's text between its quotes. -/
def escapeLabel (label : String) : List Char :=
  label.toList.flatMap fun c =>
    if c = '\\' then ['\\', '\\']
    else if c = '"' then ['\\', '"']
    else if c = '\n' then ['\\', 'n']
    else [c]

def sample (f : CounterFamily) (label : String) (c : Counters) : String :=
  f.name ++ "\x7banalyzer=\"" ++ String.ofList (escapeLabel label) ++ "\"\x7d " ++
    String.ofList (Double.render (f.value c).toNat) ++ "\n"

def expose (f : CounterFamily) (rows : List (String × Counters)) : String :=
  "# HELP " ++ f.name ++ " " ++ f.help ++ "\n# TYPE " ++ f.name ++ " counter\n" ++
    String.join (rows.map fun (label, c) => f.sample label c)

end CounterFamily

/-- The counters of each analyzer, by its name. -/
abbrev Metrics := Keyed String Counters

namespace Metrics

/-- Changes a row, which is there from then on. -/
def count (m : Metrics) (label : String) (f : Counters → Counters) : Metrics :=
  m.alter label fun c => some (f (c.getD {}))

/-- The exposition of all rows, nothing if there is none. -/
def text (m : Metrics) : String :=
  let rows := m.entries.mergeSort fun a b => !(b.1 < a.1)
  if rows.isEmpty then ""
  else String.join (CounterFamily.all.map fun f => f.expose rows)

end Metrics

end FlowProbe
