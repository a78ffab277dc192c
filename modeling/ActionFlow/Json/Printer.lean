import ActionFlow.Json.Basic
import ActionFlow.Text.Quoted

/-!
# Printing JSON

The compact text of a value, without any space, and the indented one, with one entry on a line.
In strings the quote, the backslash and the controls are escaped, and nothing else is.
-/
namespace ActionFlow.Json

def escapedChar (c : Char) : List Char :=
  if c = '"' then ['\\', '"']
  else if c = '\\' then ['\\', '\\']
  else if c = '\x08' then ['\\', 'b']
  else if c = '\t' then ['\\', 't']
  else if c = '\n' then ['\\', 'n']
  else if c = '\x0c' then ['\\', 'f']
  else if c = '\r' then ['\\', 'r']
  else if c.toNat < 0x20 then
    ['\\', 'u', '0', '0'] ++ (if c.toNat < 0x10 then ['0'] else []) ++ Text.hexDigits c.toNat
  else [c]

def stringText (s : String) : String :=
  String.ofList ('"' :: (s.toList.flatMap escapedChar ++ ['"']))

mutual
def compact : Json → String
  | null => "null"
  | bool b => if b then "true" else "false"
  | number n => n.text
  | text s => stringText s
  | array items => "[" ++ compactItems items ++ "]"
  | object fields => "\x7b" ++ compactFields fields ++ "\x7d"

def compactItems : List Json → String
  | [] => ""
  | [j] => compact j
  | j :: rest => compact j ++ "," ++ compactItems rest

def compactFields : List (String × Json) → String
  | [] => ""
  | [(key, j)] => stringText key ++ ":" ++ compact j
  | (key, j) :: rest => stringText key ++ ":" ++ compact j ++ "," ++ compactFields rest
end

def newLine (depth : Nat) : String := "\n" ++ String.ofList (List.replicate (2 * depth) ' ')

mutual
/-- The indented text of a value that stands at a depth. -/
def indented (depth : Nat) : Json → String
  | array (j :: rest) =>
    "[" ++ indentedItems (depth + 1) (j :: rest) ++ newLine depth ++ "]"
  | object (field :: rest) =>
    "\x7b" ++ indentedFields (depth + 1) (field :: rest) ++ newLine depth ++ "\x7d"
  | j => compact j

def indentedItems (depth : Nat) : List Json → String
  | [] => ""
  | [j] => newLine depth ++ indented depth j
  | j :: rest => newLine depth ++ indented depth j ++ "," ++ indentedItems depth rest

def indentedFields (depth : Nat) : List (String × Json) → String
  | [] => ""
  | [(key, j)] => newLine depth ++ stringText key ++ ": " ++ indented depth j
  | (key, j) :: rest =>
    newLine depth ++ stringText key ++ ": " ++ indented depth j ++ "," ++ indentedFields depth rest
end

/-- The text of a value with one entry on a line, indented by two spaces for each level. -/
def pretty (j : Json) : String := indented 0 j

end ActionFlow.Json
