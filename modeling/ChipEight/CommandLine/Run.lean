import ChipEight.CommandLine.Reading
import ChipEight.CommandLine.Usage
import ChipEight.Machine.Report
import ChipEight.Recorder

/-!
# Running a command line

The file is loaded into a fresh machine, which then runs for a number of ticks and shows where it
got, or runs in a window. What happens is a function of the arguments and of what the program
finds around it: its files, a host with its events, and a seed for when none is asked for.

The result holds all that is printed, in the order in which it is printed.
-/

namespace ChipEight.CommandLine

structure Surroundings where
  files : Files
  /-- The host and the events to come, or why there is no window. -/
  window : Except String (Host.Platform × Host.Feed)
  /-- The seed of the random source if none is asked for. -/
  seed : Int

/-- The reason of a program without a window to open. -/
def noWindow : String := "No module named 'pygame'"

/-- A fault that is not reported but ends the program where it stands. -/
inductive Crash where
  | load (e : LoadFault)
  | machine (e : Fault)
  | window (e : Host.RunFault)
  deriving DecidableEq, Repr

inductive Ending where
  /-- The program was run and has a status. -/
  | returned (status : Nat)
  /-- The command line asked for help or was refused. -/
  | dismissed (status : Nat)
  | crashed (c : Crash)
  deriving DecidableEq, Repr

structure Result where
  ending : Ending
  /-- The texts on the output, each followed by a line feed. -/
  out : List String
  /-- The texts on the error output, each followed by a line feed. -/
  err : List String
  /-- The calls to the host. -/
  calls : List Host.Call

namespace Result

/-- The result of a command line that is not acted on. -/
def dismissal : Stop → Result
  | .help => ⟨.dismissed 0, Usage.help, [], []⟩
  | .refused r => ⟨.dismissed 2, [], Usage.refusal r, []⟩

def crash (c : Crash) (calls : List Host.Call) : Result := ⟨.crashed c, [], [], calls⟩

/-- The result of a run that a fault of the machine cut short. -/
def fault (m : Machine) (e : Fault) (calls : List Host.Call) : Result :=
  if e.isReported then
    { ending := .returned 1
      out := [m.report]
      err := ["Fault after " ++ toString m.ticks ++ " ticks: " ++ e.message]
      calls }
  else .crash (.machine e) calls

/-- The result with texts in front of those that it has. -/
def behind (out err : List String) (r : Result) : Result :=
  { r with out := out ++ r.out, err := err ++ r.err }

end Result

namespace Options

/-- The log lines that are shown, as they are shown. -/
def shown (o : Options) (lines : List Log.Line) : List String :=
  (Log.atLeast o.logLevel lines).map Log.Line.renderAligned

/-- The machine that the options ask for, without a program. -/
def machine (o : Options) (seed : Int) : Machine :=
  { Machine.fresh (.ofSeed (o.seed.getD seed)) with trace := o.trace }

/-- A window as the options ask for it. -/
def window (o : Options) (title : String) : Host.Window :=
  .create o.scale o.hz title Host.Window.usualKeymap .usual <|
    if o.mute then none
    else some (.closed Host.Beeper.usualRate Host.Beeper.usualFrequency Host.Beeper.usualVolume)

end Options

/-- What is printed of a run without a window that came to its end. -/
def recorded (r : Recorder) (m : Machine) : List String :=
  [m.screen.render "#" ".", "",
    toString r.snapshots.size ++ " redraws, sound on for " ++ toString r.toneTicks ++ " ticks",
    m.report]

/-- Runs without a window and without keys. -/
def runHeadless (o : Options) (m : Machine) : Result :=
  let outcome := Recorder.empty.record m .none o.steps
  let (recorder, final) := outcome.state
  .behind [] (o.shown (m.runLog .none o.steps)) <|
    match outcome.answer with
    | .ok _ => ⟨.returned 0, recorded recorder final, [], []⟩
    | .error e => .fault final e []

/-- Runs in a window, as long as the events let it. -/
def runWindow (q : Request) (m : Machine) (platform : Host.Platform) (feed : Host.Feed) :
    Result :=
  let outcome := (q.options.window ("CHIP-8 - " ++ q.file)).run m feed platform none
  let calls := outcome.state.effects.calls.toList
  .behind [] (q.options.shown outcome.state.effects.log.toList) <|
    match outcome.answer with
    | .ok _ => ⟨.returned 0, [], [], calls⟩
    | .error (.machine e) => .fault outcome.state.machine e calls
    | .error e => .crash (.window e) calls

/-- What is shown if there is no window, with the reason. -/
def windowMissing (reason : String) : Result where
  ending := .returned 1
  out := []
  err := ["[display] pygame not available: " ++ reason,
    "[display] Install with: pip install pygame"]
  calls := []

/-- Runs a machine that has its program. -/
def start (q : Request) (m : Machine) (around : Surroundings) : Result :=
  if q.options.headless then runHeadless q.options m
  else
    match around.window with
    | .error reason => windowMissing reason
    | .ok (platform, feed) => runWindow q m platform feed

/-- The line that tells that a file has been loaded. -/
def loaded (file : String) (size : Nat) : String :=
  "Loaded " ++ toString size ++ " bytes from '" ++ file ++ "' at 0x200"

/-- Does what is asked for. -/
def perform (q : Request) (around : Surroundings) : Result :=
  match (q.options.machine around.seed).loadFile around.files q.file with
  | .error .badPath => .crash (.load .badPath) []
  | .error e => ⟨.returned 1, [], ["ERROR: " ++ e.message], []⟩
  | .ok (m, size) =>
    .behind [loaded q.file size] (q.options.shown [Machine.loadedLine q.file size]) <|
      start q m around

/-- Runs the program with its arguments. -/
def run (args : List String) (around : Surroundings) : Result :=
  match read args with
  | .error stop => .dismissal stop
  | .ok q => perform q around

/-- Texts as they are printed. -/
def printed (texts : List String) : String := String.join (texts.map (· ++ "\n"))

end ChipEight.CommandLine
