import ChipEight.CommandLine.Token

/-!
# Usage and help

The usage is shown above every refusal; the help has it too, and tells what each switch is for.
-/

namespace ChipEight.CommandLine

namespace Usage

/-- The name under which the program speaks of itself. -/
def program : String := "cli.py"

/-- How the program is called, in lines. -/
def usage : List String :=
  ["usage: " ++ program ++ " [-h] [--scale N] [--hz N] [--seed SEED] [--mute] [--headless]",
    "              [--steps N] [--trace] [-v]",
    "              rom"]

/-- An entry of the help: how something is written, in a column of fifteen characters, and what
it is for. -/
def entry (form purpose : String) : String :=
  "  " ++ String.ofList (form.toList.rightpad 15 ' ') ++ purpose

/-- A purpose with the number that counts where none is given. -/
def withDefault (purpose : String) (n : Int) : String :=
  purpose ++ " (default: " ++ toString n ++ ")"

def optionEntries : List String :=
  [entry "-h, --help" "show this help message and exit",
    entry "--scale N" (withDefault "Window pixels per CHIP-8 pixel" Options.usual.scale),
    entry "--hz N" (withDefault "Ticks per second, also the timer rate" Options.usual.hz),
    entry "--seed SEED" "Seed for the CXNN random source",
    entry "--mute" "Disable the sound timer tone",
    entry "--headless" "Run without a window and print the final screen",
    entry "--steps N" (withDefault "Tick budget for --headless" Options.usual.steps),
    entry "--trace" "Log every decoded instruction",
    entry "-v, --verbose" "More log output (-v info, -vv debug)"]

def help : List String :=
  usage ++
  ["", "CHIP-8 Emulator", "", "positional arguments:",
    entry "rom" "Program image, loaded at 0x200", "", "options:"] ++ optionEntries ++
  ["", "Examples:", "  python cli.py pong.ch8", "  python cli.py pong.ch8 --scale 10 --hz 500",
    "  python cli.py test.ch8 --headless --steps 5000", "",
    "The tick rate (--hz) also drives the delay and sound timers."]

/-- What is shown when a command line is refused. -/
def refusal (r : Refusal) : List String := usage ++ [program ++ ": error: " ++ r.message]

end Usage

end ChipEight.CommandLine
