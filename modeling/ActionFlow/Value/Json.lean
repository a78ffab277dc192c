import ActionFlow.Value.Basic
import ActionFlow.Json.Encoder

/-!
# Values as JSON

`toJson` gives a value the JSON form that texts and records use: bytes become a base 64 text, a file
an object with its name and content.  `ofJson` takes a JSON value as it is.  `encode` writes the
same form straight in any format, and `toText` is the rendering that text comparisons see.
-/
namespace ActionFlow.Value

mutual
def toJson : Value → Json
  | null => .null
  | bool b => .bool b
  | number n => .number n
  | text s => .text s
  | array items => .array (toJsonItems items)
  | object fields => .object (toJsonFields fields)
  | binary content => .text (Text.Base64.encode content)
  | file name content =>
    .object [("fileName", .text name), ("content", .text (Text.Base64.encode content))]

def toJsonItems : List Value → List Json
  | [] => []
  | v :: rest => toJson v :: toJsonItems rest

def toJsonFields : List (String × Value) → List (String × Json)
  | [] => []
  | (key, v) :: rest => (key, toJson v) :: toJsonFields rest
end

mutual
def ofJson : Json → Value
  | .null => null
  | .bool b => bool b
  | .number n => number n
  | .text s => text s
  | .array items => array (ofJsonItems items)
  | .object fields => object (ofJsonFields fields)

def ofJsonItems : List Json → List Value
  | [] => []
  | j :: rest => ofJson j :: ofJsonItems rest

def ofJsonFields : List (String × Json) → List (String × Value)
  | [] => []
  | (key, j) :: rest => (key, ofJson j) :: ofJsonFields rest
end

mutual
/-- Writes a value in a format, node by node. -/
def encode {α : Type} (e : Encoder α) : Value → α
  | null => e.null
  | bool b => e.bool b
  | number n => e.number n
  | text s => e.text s
  | array items => e.array (encodeItems e items)
  | object fields => e.object (encodeFields e fields)
  | binary content => e.text (Text.Base64.encode content)
  | file name content =>
    e.object [("fileName", e.text name), ("content", e.text (Text.Base64.encode content))]

def encodeItems {α : Type} (e : Encoder α) : List Value → List α
  | [] => []
  | v :: rest => encode e v :: encodeItems e rest

def encodeFields {α : Type} (e : Encoder α) : List (String × Value) → List (String × α)
  | [] => []
  | (key, v) :: rest => (key, encode e v) :: encodeFields e rest
end

/-- The compact text, written without making the JSON form first. -/
def compact (v : Value) : String := v.encode .compact

def display (v : Value) : String := v.toJson.compact

/-- The text that stands for a value in text comparisons: a text is itself, null is empty, a file
gives its name. -/
def toText : Value → String
  | text s => s
  | null => ""
  | file name _ => name
  | v => v.display

/-! ### A JSON value keeps its form -/

mutual
theorem toJson_ofJson : ∀ j : Json, (ofJson j).toJson = j
  | .null | .bool _ | .number _ | .text _ => rfl
  | .array items => by simp only [ofJson, toJson, toJsonItems_ofJsonItems items]
  | .object fields => by simp only [ofJson, toJson, toJsonFields_ofJsonFields fields]

theorem toJsonItems_ofJsonItems : ∀ items : List Json, toJsonItems (ofJsonItems items) = items
  | [] => rfl
  | j :: rest => by
    simp only [ofJsonItems, toJsonItems, toJson_ofJson j, toJsonItems_ofJsonItems rest]

theorem toJsonFields_ofJsonFields :
    ∀ fields : List (String × Json), toJsonFields (ofJsonFields fields) = fields
  | [] => rfl
  | (key, j) :: rest => by
    simp only [ofJsonFields, toJsonFields, toJson_ofJson j, toJsonFields_ofJsonFields rest]
end

end ActionFlow.Value
