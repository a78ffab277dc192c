import ActionFlow.Document.Shape
import ActionFlow.Yaml.Token

/-!
# Documents of YAML texts

The tokens of a text make up one document, whose collections are shown by indentation or by
brackets.  A key or value that is left out is an empty plain scalar.  Anchors, tags and directives
are not part of the language that definitions are written in.
-/
namespace ActionFlow.Yaml

def absent : Draft := .plain ""

def nextIsNot (stops : List Token) (ts : List Token) : Bool :=
  match ts with
  | [] => false
  | t :: _ => !stops.contains t

mutual
/-- Reads a node.  In a block, collections may be shown by indentation; as the value of a mapping a
sequence need not be indented. -/
def node (fuel : Nat) (block inMapping : Bool) (ts : List Token) :
    Option (Draft × List Token) :=
  match fuel with
  | 0 => none
  | fuel + 1 =>
    match ts with
    | .plain text :: rest => some (.plain (String.ofList text), rest)
    | .quoted text :: rest => some (.text (.ok (String.ofList text)), rest)
    | .flowSequenceStart :: rest => flowItems fuel true [] rest
    | .flowMappingStart :: rest => flowFields fuel true [] rest
    | .item :: _ => if inMapping then hangingItems fuel [] ts else none
    | .sequenceStart :: rest => if block then blockItems fuel [] rest else none
    | .mappingStart :: rest => if block then blockFields fuel [] rest else none
    | _ => none

def nodeUnless (fuel : Nat) (stops : List Token) (block inMapping : Bool) (ts : List Token) :
    Option (Draft × List Token) :=
  match fuel with
  | 0 => none
  | fuel + 1 => if nextIsNot stops ts then node fuel block inMapping ts else some (absent, ts)

/-- Reads the items of an indented sequence; `done` holds those before, last one first. -/
def blockItems (fuel : Nat) (done : List Draft) (ts : List Token) : Option (Draft × List Token) :=
  match fuel with
  | 0 => none
  | fuel + 1 =>
    match ts with
    | .item :: rest => do
      let (d, rest) ← nodeUnless fuel [.item, .blockEnd] true false rest
      blockItems fuel (d :: done) rest
    | .blockEnd :: rest => some (.array done.reverse none, rest)
    | _ => none

/-- Reads the items of a sequence at the column of the mapping around it. -/
def hangingItems (fuel : Nat) (done : List Draft) (ts : List Token) : Option (Draft × List Token) :=
  match fuel with
  | 0 => none
  | fuel + 1 =>
    match ts with
    | .item :: rest => do
      let (d, rest) ← nodeUnless fuel [.item, .key, .value, .blockEnd] true false rest
      hangingItems fuel (d :: done) rest
    | _ => some (.array done.reverse none, ts)

def blockFields (fuel : Nat) (done : List (Draft × Draft)) (ts : List Token) :
    Option (Draft × List Token) :=
  match fuel with
  | 0 => none
  | fuel + 1 =>
    match ts with
    | .key :: rest => do
      let stops := [.key, .value, .blockEnd]
      let (key, rest) ← nodeUnless fuel stops true true rest
      match rest with
      | .value :: rest =>
        let (value, rest) ← nodeUnless fuel stops true true rest
        blockFields fuel ((key, value) :: done) rest
      | _ => blockFields fuel ((key, absent) :: done) rest
    | .blockEnd :: rest => some (.object done.reverse none, rest)
    | _ => none

/-- Reads the items of a sequence in brackets.  A key there makes a mapping of one field; where the
key is left out after its question mark, the token in its place is taken for it. -/
def flowItems (fuel : Nat) (first : Bool) (done : List Draft) (ts : List Token) :
    Option (Draft × List Token) :=
  match fuel with
  | 0 => none
  | fuel + 1 =>
    let entry (ts : List Token) : Option (Draft × List Token) :=
      match ts with
      | .flowSequenceEnd :: rest => some (.array done.reverse none, rest)
      | .key :: rest => do
        let (key, rest) ←
          if nextIsNot [.value, .comma, .flowSequenceEnd] rest then node fuel false false rest
          else some (absent, rest.drop 1)
        match rest with
        | .value :: rest =>
          let (value, rest) ← nodeUnless fuel [.comma, .flowSequenceEnd] false false rest
          flowItems fuel false (.object [(key, value)] none :: done) rest
        | _ => flowItems fuel false (.object [(key, absent)] none :: done) rest
      | ts => do
        let (d, rest) ← node fuel false false ts
        flowItems fuel false (d :: done) rest
    match first, ts with
    | false, .comma :: rest => entry rest
    | false, .flowSequenceEnd :: rest => some (.array done.reverse none, rest)
    | false, _ => none
    | true, ts => entry ts

def flowFields (fuel : Nat) (first : Bool) (done : List (Draft × Draft)) (ts : List Token) :
    Option (Draft × List Token) :=
  match fuel with
  | 0 => none
  | fuel + 1 =>
    let entry (ts : List Token) : Option (Draft × List Token) :=
      match ts with
      | .flowMappingEnd :: rest => some (.object done.reverse none, rest)
      | .key :: rest => do
        let (key, rest) ← nodeUnless fuel [.value, .comma, .flowMappingEnd] false false rest
        match rest with
        | .value :: rest =>
          let (value, rest) ← nodeUnless fuel [.comma, .flowMappingEnd] false false rest
          flowFields fuel false ((key, value) :: done) rest
        | _ => flowFields fuel false ((key, absent) :: done) rest
      | ts => do
        let (key, rest) ← node fuel false false ts
        flowFields fuel false ((key, absent) :: done) rest
    match first, ts with
    | false, .comma :: rest => entry rest
    | false, .flowMappingEnd :: rest => some (.object done.reverse none, rest)
    | false, _ => none
    | true, ts => entry ts
end

def content (ts : List Token) : Option (Draft × List Token) :=
  match ts with
  | [] | .documentStart :: _ | .documentEnd :: _ => some (absent, ts)
  | ts => node (6 * ts.length + 6) true false ts

/-- The draft of the one document that tokens make up.  A document without a mark before it must not
be empty, unless the text is. -/
def document? (ts : List Token) : Option Draft := do
  let (draft, rest) ←
    match ts with
    | .documentEnd :: _ => none
    | .documentStart :: rest => content rest
    | ts => content ts
  if (rest.dropWhile (· = .documentEnd)).isEmpty then some draft else none

def draft? (text : String) : Option Draft := (tokens? text).bind document?

end ActionFlow.Yaml

namespace ActionFlow

def Draft.readYamlText {α : Type} (read : Origin → Draft → Except ReadError α) (s : String) :
    Except ReadError α :=
  match Yaml.draft? s with
  | some d => read (.yaml 128) d
  | none => .error (.flaw .malformed)

end ActionFlow
