import ChipEight.CommandLine.Switch
import ChipEight.Text.Integer
import ChipEight.Text.Quoted

/-!
# Arguments as tokens

Every argument is a word or a switch before any of them is acted on. A text that starts with a
dash is a switch if it is spelled like one, if the part before an equals sign is, if it is the
beginning of exactly one spelling, or if it is a one-letter switch with more text behind it.
Otherwise a negative number or a text with a blank is a word, and anything else is a switch that
nobody knows. Two dashes alone make words of all arguments behind them.
-/

namespace ChipEight.CommandLine

open Text

/-- Why a command line is refused. -/
inductive Refusal where
  /-- The text is the beginning of several spellings. -/
  | ambiguous (text : String) (candidates : List String)
  | notAnInteger (s : Switch) (text : String)
  | valueMissing (s : Switch)
  /-- A value was given to a switch that takes none. -/
  | valueUnused (s : Switch) (text : String)
  | fileMissing
  | unrecognized (texts : List String)
  deriving DecidableEq, Repr

namespace Refusal

/-- The message on a switch. -/
def about (s : Switch) (message : String) : String := "argument " ++ s.title ++ ": " ++ message

def message : Refusal → String
  | .ambiguous text candidates =>
    "ambiguous option: " ++ text ++ " could match " ++ ", ".intercalate candidates
  | .notAnInteger s text => about s ("invalid int value: " ++ quoted text)
  | .valueMissing s => about s "expected one argument"
  | .valueUnused s text => about s ("ignored explicit argument " ++ quoted text)
  | .fileMissing => "the following arguments are required: rom"
  | .unrecognized texts => "unrecognized arguments: " ++ " ".intercalate texts

end Refusal

/-- Text that is attached to a switch, and whether an equals sign stands between them. -/
structure Attached where
  sign : Bool
  text : List Char
  deriving DecidableEq, Repr

inductive Token where
  | word (text : String)
  /-- Two dashes alone. -/
  | dashes
  /-- A switch, by its long spelling or its letter. -/
  | switch (s : Switch) (long : Bool) (attached : Option Attached)
  | unknown (text : String)
  deriving DecidableEq, Repr

namespace Token

/-- The argument as it was typed, for tokens that may be left over. -/
def text : Token → String
  | .word text | .unknown text => text
  | .dashes => "--"
  | .switch s _ _ => s.title

/-- Whether the token is acted on as a switch, known or not. -/
def isSwitch : Token → Bool
  | .switch _ _ _ | .unknown _ => true
  | _ => false

/-- The text before the first equals sign, and the text behind it. -/
def splitAtSign (cs : List Char) : List Char × Option Attached :=
  match cs.dropWhile (· ≠ '=') with
  | [] => (cs, none)
  | _ :: rest => (cs.takeWhile (· ≠ '='), some ⟨true, rest⟩)

/-- Digits with a point before the last of them or without one, behind a dash. A line feed at the
end does not count. -/
def isNegativeNumber (cs : List Char) : Bool :=
  let isDigit := fun c => (DecimalDigit.value? c).isSome
  let cs := if cs.getLast? = some '\n' then cs.dropLast else cs
  match cs with
  | '-' :: rest =>
    match rest.dropWhile isDigit with
    | [] => !rest.isEmpty
    | '.' :: fraction => !fraction.isEmpty && fraction.all isDigit
    | _ => false
  | _ => false

/-- The switches that a text may be short for, with their spellings. `long` tells whether it
starts with two dashes. -/
def candidates (cs : List Char) (long : Bool) : List (String × Token) :=
  let (front, behind) := splitAtSign cs
  Switch.spellings.filterMap fun (spelling, s) =>
    let letters := spelling.toList
    if long then
      if front.isPrefixOf letters then some (spelling, .switch s true behind) else none
    else if letters = cs.take 2 then some (spelling, .switch s false (some ⟨false, cs.drop 2⟩))
    else if cs.isPrefixOf letters then some (spelling, .switch s false none)
    else none

/-- A text that starts with a dash and has more characters. -/
def ofDashed (text : String) (long : Bool) : Except Refusal Token :=
  let cs := text.toList
  let (front, behind) := splitAtSign cs
  match Switch.ofSpelling? text, Switch.ofSpelling? (String.ofList front), behind with
  | some s, _, _ => .ok (.switch s long none)
  | none, some s, some attached => .ok (.switch s long (some attached))
  | _, _, _ =>
    match candidates cs long with
    | [(_, token)] => .ok token
    | [] =>
      if isNegativeNumber cs || cs.contains ' ' then .ok (.word text) else .ok (.unknown text)
    | several => .error (.ambiguous text (several.map (·.1)))

/-- The token for one argument. -/
def ofText (text : String) : Except Refusal Token :=
  match text.toList with
  | '-' :: c :: _ => ofDashed text (c = '-')
  | _ => .ok (.word text)

/-- The tokens for all arguments. -/
def ofArguments : List String → Except Refusal (List Token)
  | [] => .ok []
  | text :: rest =>
    if text = "--" then .ok (.dashes :: rest.map .word)
    else do
      let token ← ofText text
      return token :: (← ofArguments rest)

end Token

end ChipEight.CommandLine
