import ChipEight.Text.Hex
import ChipEight.Text.Printable

/-!
# Quoted text

A quoted text stands between two equal quotes. The quote is a single one unless the text holds a
single quote and no double one. Inside, the quote in use and the backslash take a backslash in
front; tab, line feed and carriage return have letters of their own; any other character that is
not printable is written by its code, with two, four or eight lower-case digits.
-/

namespace ChipEight.Text

namespace Quoted

def singleQuote : Char := Char.ofNat 39

def doubleQuote : Char := Char.ofNat 34

def backslash : Char := Char.ofNat 92

/-- The quote that surrounds the text. -/
def quoteFor (text : List Char) : Char :=
  if singleQuote ∈ text ∧ doubleQuote ∉ text then doubleQuote else singleQuote

/-- A backslash, a letter and the code of the character with `width` digits. -/
def coded (letter : Char) (width : Nat) (c : Char) : List Char :=
  backslash :: letter :: (Hex.numeral "" .lower width c.toNat).toList

/-- One character as it is written between the quotes. -/
def encodeChar (quote c : Char) : List Char :=
  if c = quote ∨ c = backslash then [backslash, c]
  else if c = '\t' then [backslash, 't']
  else if c = '\n' then [backslash, 'n']
  else if c = '\r' then [backslash, 'r']
  else if Printable.holds c then [c]
  else if c.toNat < 0x100 then coded 'x' 2 c
  else if c.toNat < 0x10000 then coded 'u' 4 c
  else coded 'U' 8 c

def encode (text : List Char) : List Char :=
  let quote := quoteFor text
  quote :: text.flatMap (encodeChar quote) ++ [quote]

end Quoted

/-- The text between quotes, on one line and with printable characters only. -/
def quoted (text : String) : String := String.ofList (Quoted.encode text.toList)

end ChipEight.Text
