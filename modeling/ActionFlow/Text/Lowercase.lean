import ActionFlow.Text.Ranges
import ActionFlow.Text.CaseTable

/-!
# Lower case

The full lower-case form of a text.  Every capital is replaced by its partner; two characters need
more than that.  The dotted capital I becomes an `i` with a combining dot, and a capital sigma takes
its final form where a word ends: after a cased character and before none, where the characters
that case ignores are looked through in both directions.
-/
namespace ActionFlow.Text

def lowercaseIn (runs : List (Nat × Nat × Nat × Int)) (c : Char) : Char :=
  match runs with
  | [] => c
  | (first, last, step, shift) :: rest =>
    if first ≤ c.toNat ∧ c.toNat ≤ last ∧ (c.toNat - first) % step = 0 then
      Char.ofNat (c.toNat + shift).toNat
    else lowercaseIn rest c

def lowercaseChar (c : Char) : Char :=
  if c.toNat < 0x80 then c.toLower else lowercaseIn lowercaseRuns c

def isCased (c : Char) : Bool := inRanges casedBoundaries c.toNat

def isCaseIgnorable (c : Char) : Bool := inRanges caseIgnorableBoundaries c.toNat

def startsCased (cs : List Char) : Bool :=
  match cs.dropWhile isCaseIgnorable with
  | [] => false
  | c :: _ => isCased c

/-- The lower-case form of `cs`, where `before` holds the preceding characters, last one first. -/
def lowercaseFrom (before : List Char) : List Char → List Char
  | [] => []
  | c :: rest =>
    let lowered :=
      if c = 'Σ' then
        if startsCased before && !startsCased rest then ['ς'] else ['σ']
      else if c = 'İ' then ['i', '\u0307']
      else [lowercaseChar c]
    lowered ++ lowercaseFrom (c :: before) rest

def lowercase (s : String) : String :=
  String.ofList (lowercaseFrom [] s.toList)

end ActionFlow.Text
