/-!
# Sets of characters as boundaries

A character property that holds on many separate ranges is stored as the increasing list of the
code points at which it changes: it is off before the first, on from the first up to the second,
and so on.  A character has the property when an odd number of boundaries is at or below it.
-/
namespace ActionFlow.Text

/-- Whether a code point lies in the set whose boundaries are listed in increasing order. -/
def inRanges (boundaries : List Nat) (code : Nat) : Bool :=
  match boundaries with
  | [] => false
  | b :: rest => if code < b then false else !inRanges rest code

end ActionFlow.Text
