import ActionFlow.Document.Draft
import ActionFlow.Document.Scalar
import ActionFlow.Text.Quoted

/-!
# Reading documents into types

A reader takes a draft and gives a value of its type, or the first reason in document order why
there is none: a flaw of the text, or a mismatch between what stands there and what is expected.
The readers here are those of plain types; those of structured ones are built from `once`, which
reads a declared field and refuses it a second time, and from `enter`, which counts nested levels.
-/
namespace ActionFlow

inductive Found where
  | null
  | bool (value : Bool)
  | number (value : Number)
  | text (content : String)
  | sequence
  | map
  deriving DecidableEq

def Found.ofJson : Json → Found
  | .null => null
  | .bool b => bool b
  | .number n => number n
  | .text s => text s
  | .array _ => sequence
  | .object _ => map

def Found.describe : Found → String
  | null => "null"
  | bool b => "boolean `" ++ (if b then "true" else "false") ++ "`"
  | number (.integer i) => "integer `" ++ Decimal.integerText i ++ "`"
  | number (.double x) => "floating point `" ++ Decimal.doubleText x ++ "`"
  | text s => "string " ++ Text.quoted s
  | sequence => "sequence"
  | map => "map"

inductive Mismatch where
  | wrongType (found : Found) (expected : String)
  | wrongValue (found : Found) (expected : String)
  | wrongLength (length : Nat) (expected : String)
  | missingField (name : String)
  | duplicateField (name : String)
  | unknownVariant (name : String) (allowed : List String)
  deriving DecidableEq

def Mismatch.message : Mismatch → String
  | wrongType found expected => "invalid type: " ++ found.describe ++ ", expected " ++ expected
  | wrongValue found expected => "invalid value: " ++ found.describe ++ ", expected " ++ expected
  | wrongLength length expected =>
    "invalid length " ++ Decimal.integerText length ++ ", expected " ++ expected
  | missingField name => "missing field `" ++ name ++ "`"
  | duplicateField name => "duplicate field `" ++ name ++ "`"
  | unknownVariant name allowed =>
    "unknown variant `" ++ name ++ "`, expected one of " ++
      ", ".intercalate (allowed.map fun a => "`" ++ a ++ "`")

inductive ReadError where
  | flaw (flaw : Flaw)
  | mismatch (mismatch : Mismatch)
  deriving DecidableEq

/-- What a draft was made from. -/
inductive Origin where
  | value
  /-- A JSON text in which so many further levels may be entered. -/
  | json (levels : Nat)
  /-- A YAML text in which so many further levels may be entered. -/
  | yaml (levels : Nat)
  deriving DecidableEq

namespace Origin

def enter : Origin → Except ReadError Origin
  | value => .ok value
  | json 0 | yaml 0 => .error (.flaw .malformed)
  | json (n + 1) => .ok (json n)
  | yaml (n + 1) => .ok (yaml n)

/-- Begins a sequence that stands for the fields of a structure, which YAML does not allow. -/
def enterPlaces (expected : String) : Origin → Except ReadError Origin
  | yaml _ => .error (.mismatch (.wrongType .sequence expected))
  | origin => origin.enter

end Origin

namespace Draft

/-- The error of finding a draft where something of another type is expected.  A flaw of a scalar
comes before its type; what an array or an object holds is not looked at. -/
def unexpected (expected : String) (d : Draft) : ReadError :=
  let wrong (found : Found) : ReadError := .mismatch (.wrongType found expected)
  match d with
  | null => wrong .null
  | bool b => wrong (.bool b)
  | number (some n) => wrong (.number n)
  | number none => .flaw .malformed
  | text (.ok s) => wrong (.text s)
  | text (.error f) => .flaw f
  | plain s => wrong (.text s)
  | array _ _ => wrong .sequence
  | object _ _ => wrong .map
  | broken b => .flaw b.whenRead

def readStop : Option Break → Except ReadError Unit
  | none => .ok ()
  | some b => .error (.flaw b.whenRead)

def ignore (d : Draft) : Except ReadError Unit := d.skip.mapError .flaw

/-- A text.  An unquoted scalar is one, whatever it spells. -/
def readText : Draft → Except ReadError String
  | text (.ok s) => .ok s
  | plain s => .ok s
  | d => .error (d.unexpected "a string")

def readBool : Draft → Except ReadError Bool
  | bool b => .ok b
  | plain s =>
    match Scalar.boolWord? s with
    | some b => .ok b
    | none => .error ((plain s).unexpected "a boolean")
  | d => .error (d.unexpected "a boolean")

def readOptional {α : Type} (read : Draft → Except ReadError α) :
    Draft → Except ReadError (Option α)
  | null => .ok none
  | plain s => if Scalar.isNullWord s then .ok none else (read (plain s)).map some
  | d => (read d).map some

def readScalar (s : String) : Except ReadError Json :=
  match Scalar.ofText s with
  | .null | .notFinite => .ok .null
  | .bool b => .ok (.bool b)
  | .number n => .ok (.number n)
  | .oversized => .error ((plain s).unexpected "any valid JSON value")
  | .text => .ok (.text s)

mutual
/-- A value of any type.  A repeated key keeps its first place and its last value. -/
def readAny (origin : Origin) : Draft → Except ReadError Json
  | null => .ok .null
  | bool b => .ok (.bool b)
  | number (some n) => .ok (.number n)
  | text (.ok s) => .ok (.text s)
  | plain s => readScalar s
  | array items stop => do
    let inner ← origin.enter
    let values ← readAnyItems inner items
    readStop stop
    .ok (.array values)
  | object fields stop => do
    let inner ← origin.enter
    let values ← readAnyFields inner [] fields
    readStop stop
    .ok (.object values)
  | d => .error (d.unexpected "any valid JSON value")

def readAnyItems (origin : Origin) : List Draft → Except ReadError (List Json)
  | [] => .ok []
  | d :: rest => do
    let value ← readAny origin d
    let values ← readAnyItems origin rest
    .ok (value :: values)

def readAnyFields (origin : Origin) (done : Entries Json) :
    List (Draft × Draft) → Except ReadError (Entries Json)
  | [] => .ok done
  | (key, d) :: rest => do
    let name ← readText key
    let value ← readAny origin d
    readAnyFields origin (Entries.put done name value) rest
end

mutual
def keysAreTexts : Draft → Bool
  | array items _ => itemKeysAreTexts items
  | object fields _ => fieldKeysAreTexts fields
  | _ => true

def itemKeysAreTexts : List Draft → Bool
  | [] => true
  | d :: rest => keysAreTexts d && itemKeysAreTexts rest

def fieldKeysAreTexts : List (Draft × Draft) → Bool
  | [] => true
  | (key, d) :: rest =>
    (match key with
      | plain s => Scalar.ofText s = .text
      | _ => true) && keysAreTexts d && fieldKeysAreTexts rest
end

def readSetting (origin : Origin) (d : Draft) : Except ReadError Json := do
  let value ← readAny origin d
  if keysAreTexts d then .ok value else .error (.flaw .malformed)

def readItems {α : Type} (read : Draft → Except ReadError α) :
    List Draft → Except ReadError (List α)
  | [] => .ok []
  | d :: rest => do
    let value ← read d
    let values ← readItems read rest
    .ok (value :: values)

/-- A list.  A missing value in an unquoted document is the empty list. -/
def readList {α : Type} (origin : Origin) (read : Origin → Draft → Except ReadError α) :
    Draft → Except ReadError (List α)
  | array items stop => do
    let inner ← origin.enter
    let values ← readItems (read inner) items
    readStop stop
    .ok values
  | plain s => if s = "" then .ok [] else .error ((plain s).unexpected "a sequence")
  | d => .error (d.unexpected "a sequence")

def once {α : Type} (slot : Option α) (name : String) (read : Except ReadError α) :
    Except ReadError (Option α) :=
  match slot with
  | some _ => .error (.mismatch (.duplicateField name))
  | none => read.map some

def require {α : Type} (slot : Option α) (name : String) : Except ReadError α :=
  match slot with
  | some a => .ok a
  | none => .error (.mismatch (.missingField name))

def readFields {σ : Type} (step : σ → String → Draft → Except ReadError σ) (state : σ) :
    List (Draft × Draft) → Except ReadError σ
  | [] => .ok state
  | (key, d) :: rest => do
    let name ← readText key
    let next ← step state name d
    readFields step next rest

def nextItem (items : List Draft) (stop : Option Break) :
    Except ReadError (Option Draft × List Draft) :=
  match items with
  | d :: rest => .ok (some d, rest)
  | [] => (readStop stop).map fun _ => (none, [])

/-- The field of a structure that an item of a sequence stands for, with `index` fields before
it. -/
def readPlace {α : Type} (index : Nat) (expected : String) (read : Draft → Except ReadError α)
    (next : Option Draft) : Except ReadError α :=
  match next with
  | some d => read d
  | none => .error (.mismatch (.wrongLength index expected))

def readEnd (origin : Origin) (length : Nat) (rest : List Draft) (stop : Option Break) :
    Except ReadError Unit :=
  match rest, origin with
  | [], _ => readStop stop
  | _ :: _, .value => .error (.mismatch (.wrongLength length "fewer elements in array"))
  | _ :: _, .json _ | _ :: _, .yaml _ => .error (.flaw .malformed)

end Draft

end ActionFlow
