import ChipEight.CommandLine.Token

/-!
# Reading a command line

The tokens are taken in order. A switch acts at once, with the word behind it if it takes a value
and none is attached. The first word that is no value is the file; what nobody takes is left over,
and a command line with anything left over is refused, as is one without a file. A call for help
ends the reading where it stands.
-/

namespace ChipEight.CommandLine

open Text

/-- Why reading ended without a request. -/
inductive Stop where
  | help
  | refused (r : Refusal)
  deriving DecidableEq, Repr

/-- What has been read so far. -/
structure Draft where
  file : Option String
  options : Options
  /-- Arguments that nobody took. -/
  leftOver : List String
  deriving DecidableEq, Repr

namespace Draft

def empty : Draft := ⟨none, .usual, []⟩

/-- The text as one that nobody took. -/
def leave (d : Draft) (text : String) : Draft := { d with leftOver := d.leftOver ++ [text] }

/-- The text as the file, or as one that nobody took if there is a file already. -/
def word (d : Draft) (text : String) : Draft :=
  match d.file with
  | none => { d with file := some text }
  | some _ => d.leave text

/-- A switch with a value. -/
def give (d : Draft) (s : Switch) (text : String) : Except Stop Draft :=
  match Integer.read? text with
  | some n => .ok { d with options := d.options.setValue n s }
  | none => .error (.refused (.notAnInteger s text))

/-- A switch without a value. -/
def turnOn (d : Draft) (s : Switch) : Except Stop Draft :=
  if s = .help then .error .help else .ok { d with options := d.options.turnOn s }

/-- The switches that are written as letters behind one dash: the switch `s` and those in the text
attached to it. From a letter that is no switch on, the text is left over. -/
def letters (s : Switch) (sign : Bool) : List Char → Except Refusal (List Switch × Option String)
  | [] => .error (.valueUnused s "")
  | c :: rest =>
    if sign || c = '-' then .error (.valueUnused s (String.ofList (c :: rest)))
    else
      match Switch.ofSpelling? (String.ofList ['-', c]) with
      | none => .ok ([s], some (String.ofList ('-' :: c :: rest)))
      | some t =>
        match rest with
        | [] => .ok ([s, t], none)
        | '=' :: value =>
          .error (.valueUnused t (String.ofList value))
        | rest => (letters t false rest).map fun (ts, left) => (s :: ts, left)

/-- A switch that takes no value, with whatever is attached to it. -/
def flag (d : Draft) (s : Switch) (long : Bool) : Option Attached → Except Stop Draft
  | none => d.turnOn s
  | some ⟨sign, text⟩ =>
    if long then .error (.refused (.valueUnused s (String.ofList text)))
    else
      match letters s sign text with
      | .error r => .error (.refused r)
      | .ok (switches, left) => do
        let d ← switches.foldlM turnOn d
        return left.elim d d.leave

/-- The tokens behind the last switch. Two dashes beside the file are dropped with it. -/
def close (d : Draft) (ts : List Token) : Draft :=
  match d.file, ts with
  | none, .dashes :: t :: rest => rest.foldl (fun d t => d.leave t.text) (d.word t.text)
  | none, .word text :: .dashes :: rest =>
    rest.foldl (fun d t => d.leave t.text) (d.word text)
  | none, .word text :: rest => rest.foldl (fun d t => d.leave t.text) (d.word text)
  | _, ts => ts.foldl (fun d t => d.leave t.text) d

/-- Takes all tokens in order. -/
def take (d : Draft) : List Token → Except Stop Draft
  | [] => .ok d
  | .switch s long (some attached) :: rest =>
    if s.takesValue then do (← d.give s (String.ofList attached.text)).take rest
    else do (← d.flag s long (some attached)).take rest
  | .switch s long none :: .word text :: rest =>
    if s.takesValue then do (← d.give s text).take rest
    else do (← d.flag s long none).take (.word text :: rest)
  | .switch s long none :: rest =>
    if s.takesValue then .error (.refused (.valueMissing s))
    else do (← d.flag s long none).take rest
  | .unknown text :: rest => (d.leave text).take rest
  | t :: rest =>
    if rest.any Token.isSwitch then (d.word t.text).take rest else .ok (d.close (t :: rest))

/-- The request, if nothing is missing and nothing left over. -/
def finish (d : Draft) : Except Stop Request :=
  match d.file with
  | none => .error (.refused .fileMissing)
  | some file =>
    if d.leftOver = [] then .ok ⟨file, d.options⟩ else .error (.refused (.unrecognized d.leftOver))

end Draft

/-- What the arguments ask for. -/
def read (args : List String) : Except Stop Request :=
  match Token.ofArguments args with
  | .error r => .error (.refused r)
  | .ok tokens => do (← Draft.empty.take tokens).finish

end ChipEight.CommandLine
