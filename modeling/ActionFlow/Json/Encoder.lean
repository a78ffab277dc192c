import ActionFlow.Json.Printer

/-!
# Encoders

A format to write values in: what it makes of each kind of node, given what it made of the parts.
Whatever has an `encode` writes itself in every format; `Encoder.json` puts a JSON value together
and `Encoder.compact` the compact text.
-/
namespace ActionFlow

/-- What a format makes of each kind of node. -/
structure Encoder (α : Type) where
  null : α
  bool : Bool → α
  number : Number → α
  text : String → α
  array : List α → α
  object : List (String × α) → α

namespace Encoder

def json : Encoder Json := ⟨.null, .bool, .number, .text, .array, .object⟩

/-- The texts with a comma between each two. -/
def commaSeparated : List String → String
  | [] => ""
  | [s] => s
  | s :: rest => s ++ "," ++ commaSeparated rest

def compactField (field : String × String) : String := Json.stringText field.1 ++ ":" ++ field.2

def compact : Encoder String where
  null := "null"
  bool b := if b then "true" else "false"
  number := Number.text
  text := Json.stringText
  array items := "[" ++ commaSeparated items ++ "]"
  object fields := "\x7b" ++ commaSeparated (fields.map compactField) ++ "\x7d"

end Encoder

namespace Json

variable {α : Type}

mutual
def encode (e : Encoder α) : Json → α
  | null => e.null
  | bool b => e.bool b
  | number n => e.number n
  | text s => e.text s
  | array items => e.array (encodeItems e items)
  | object fields => e.object (encodeFields e fields)

def encodeItems (e : Encoder α) : List Json → List α
  | [] => []
  | j :: rest => encode e j :: encodeItems e rest

def encodeFields (e : Encoder α) : List (String × Json) → List (String × α)
  | [] => []
  | (key, j) :: rest => (key, encode e j) :: encodeFields e rest
end

end Json

end ActionFlow
