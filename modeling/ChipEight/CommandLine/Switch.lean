import ChipEight.Host.Window

/-!
# Switches and options

A switch is spelled with one dash and a letter or with two dashes and a word. Some take a value.
The options are what the switches of a command line add up to.
-/

namespace ChipEight.CommandLine

inductive Switch where
  | help
  | scale
  | hz
  | seed
  | mute
  | headless
  | steps
  | trace
  | verbose
  deriving DecidableEq, Repr

namespace Switch

/-- All spellings, in the order in which they are offered. -/
def spellings : List (String × Switch) :=
  [("-h", .help), ("--help", .help), ("--scale", .scale), ("--hz", .hz), ("--seed", .seed),
    ("--mute", .mute), ("--headless", .headless), ("--steps", .steps), ("--trace", .trace),
    ("-v", .verbose), ("--verbose", .verbose)]

/-- The switch with exactly this spelling. -/
def ofSpelling? (text : String) : Option Switch :=
  (spellings.find? fun entry => entry.1 = text).map (·.2)

/-- The name of a switch in messages: all of its spellings. -/
def title (s : Switch) : String :=
  "/".intercalate ((spellings.filter fun entry => entry.2 = s).map (·.1))

def takesValue : Switch → Bool
  | .scale | .hz | .seed | .steps => true
  | _ => false

end Switch

structure Options where
  scale : Int
  hz : Int
  /-- The seed of the random source, if one is asked for. -/
  seed : Option Int
  mute : Bool
  headless : Bool
  /-- Ticks of a run without a window. -/
  steps : Int
  trace : Bool
  verbosity : Nat
  deriving DecidableEq, Repr

namespace Options

def usual : Options where
  scale := Host.Window.usualScale
  hz := Host.Window.usualHz
  seed := none
  mute := false
  headless := false
  steps := 1000
  trace := false
  verbosity := 0

/-- A switch without a value. -/
def turnOn (o : Options) : Switch → Options
  | .mute => { o with mute := true }
  | .headless => { o with headless := true }
  | .trace => { o with trace := true }
  | .verbose => { o with verbosity := o.verbosity + 1 }
  | _ => o

/-- A switch with a value; the last one counts. -/
def setValue (o : Options) (n : Int) : Switch → Options
  | .scale => { o with scale := n }
  | .hz => { o with hz := n }
  | .seed => { o with seed := some n }
  | .steps => { o with steps := n }
  | _ => o

/-- The least level of the log that is shown. -/
def logLevel (o : Options) : Log.Level :=
  if o.trace || 2 ≤ o.verbosity then .debug
  else if o.verbosity = 1 then .info
  else .warning

end Options

/-- What a command line asks for: a file to run, and how. -/
structure Request where
  file : String
  options : Options
  deriving DecidableEq, Repr

end ChipEight.CommandLine
