/-!
# Object paths

A path is a list of segments.  Its text puts a slash before each segment and escapes the slash and
the tilde inside one; reading a text skips empty segments, so a leading slash may be missing and
repeated ones count as one.  `isPropertyName` is the grammar of the names that variables and object
properties may have.
-/
namespace ActionFlow

/-- A path into a value, outermost segment first. -/
structure Path where
  segments : List String
  deriving DecidableEq, Repr

namespace Path

def root : Path := ⟨[]⟩

def isRoot (p : Path) : Bool := p.segments.isEmpty

def join (p : Path) (segment : String) : Path := ⟨p.segments ++ [segment]⟩

def splitFirst? (p : Path) : Option (String × List String) :=
  match p.segments with
  | [] => none
  | first :: rest => some (first, rest)

/-! ### Escapes -/

/-- Writes a text in the place of each occurrence of a character. -/
def replaceChar (c : Char) (text cs : List Char) : List Char :=
  cs.flatMap fun d => if d = c then text else [d]

/-- Writes a character in the place of each occurrence of a pair, found from the left. -/
def replacePair (first second c : Char) : List Char → List Char
  | [] => []
  | [d] => [d]
  | d :: e :: rest =>
    if d = first ∧ e = second then c :: replacePair first second c rest
    else d :: replacePair first second c (e :: rest)

/-- A segment as it is written: `~0` for a tilde and `~1` for a slash. -/
def escape (cs : List Char) : List Char :=
  replaceChar '/' ['~', '1'] (replaceChar '~' ['~', '0'] cs)

/-- The segment of a written text; a tilde before anything else stands for itself. -/
def unescape (cs : List Char) : List Char :=
  replacePair '~' '0' '~' (replacePair '~' '1' '/' cs)

/-- The pieces of a text between slashes; there is one more than there are slashes. -/
def pieces : List Char → List (List Char)
  | [] => [[]]
  | c :: rest =>
    match pieces rest with
    | [] => [[c]]
    | piece :: others => if c = '/' then [] :: piece :: others else (c :: piece) :: others

def segmentChars (segments : List String) : List Char :=
  segments.flatMap fun s => '/' :: escape s.toList

def text (p : Path) : String :=
  if p.segments.isEmpty then "/" else String.ofList (segmentChars p.segments)

def parse (s : String) : Path :=
  ⟨((pieces s.toList).filter (· ≠ [])).map fun piece => String.ofList (unescape piece)⟩

end Path

/-! ### Property names -/

def isNameStart (c : Char) : Bool := c.isLower || c = '_'

def isNamePart (c : Char) : Bool := c.isAlphanum || c = '_'

def isPropertyName (name : String) : Bool :=
  match name.toList with
  | [] => false
  | c :: rest => isNameStart c && rest.all isNamePart

def invalidNameMessage : String := "Object property key must have a valid property name"

end ActionFlow
