/-!
# Log

A log line has a level, the component that speaks, and a text. Whoever shows the log picks the
least level to be shown.
-/

namespace ChipEight.Log

inductive Level where
  | debug
  | info
  | warning
  deriving DecidableEq, Repr

namespace Level

def label : Level → String
  | .debug => "DEBUG"
  | .info => "INFO"
  | .warning => "WARNING"

def rank : Level → Nat
  | .debug => 0
  | .info => 1
  | .warning => 2

end Level

/-- The part of the program that a line comes from. -/
inductive Component where
  | machine
  | host
  deriving DecidableEq, Repr

def Component.label : Component → String
  | .machine => "system"
  | .host => "display"

structure Line where
  level : Level
  component : Component
  text : String
  deriving DecidableEq, Repr

namespace Line

/-- Level, component and text. -/
def render (line : Line) : String :=
  line.level.label ++ " " ++ line.component.label ++ ": " ++ line.text

/-- The same with the level in a column of seven characters. -/
def renderAligned (line : Line) : String :=
  String.ofList (line.level.label.toList.rightpad 7 ' ') ++ " " ++ line.component.label ++ ": " ++
    line.text

end Line

/-- The lines at or above a level. -/
def atLeast (level : Level) (lines : List Line) : List Line :=
  lines.filter fun line => level.rank ≤ line.level.rank

end ChipEight.Log
