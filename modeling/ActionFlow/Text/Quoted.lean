import ActionFlow.Text.Ranges
import ActionFlow.Text.EscapeTable

/-!
# Quoted texts in messages

A text shown inside a message stands between double quotes.  The quote, the backslash and the four
common controls are written with a backslash; every other character that would not be seen as
itself is written by its code point, as `\u` with the hexadecimal number in braces.
-/
namespace ActionFlow.Text

def hexDigits (n : Nat) : List Char := Nat.toDigits 16 n

/-- Whether a character is written by its code point. -/
def isHidden (c : Char) : Bool := inRanges hiddenBoundaries c.toNat

def quotedChar (c : Char) : List Char :=
  if c = '"' then ['\\', '"']
  else if c = '\\' then ['\\', '\\']
  else if c = '\n' then ['\\', 'n']
  else if c = '\r' then ['\\', 'r']
  else if c = '\t' then ['\\', 't']
  else if c = '\x00' then ['\\', '0']
  else if isHidden c then ['\\', 'u', '\x7b'] ++ hexDigits c.toNat ++ ['\x7d']
  else [c]

def quoted (s : String) : String :=
  String.ofList ('"' :: (s.toList.flatMap quotedChar ++ ['"']))

def quotedList (texts : List String) : String :=
  "[" ++ ", ".intercalate (texts.map quoted) ++ "]"

end ActionFlow.Text
