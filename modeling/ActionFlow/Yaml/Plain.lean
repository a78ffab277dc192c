import ActionFlow.Yaml.Cursor

/-!
# Plain scalars

An unquoted scalar ends at a comment, at a colon that a blank follows, at the indicators of a flow
collection inside of one, and where a line is not indented enough.
-/
namespace ActionFlow.Yaml.Plain

def isFlowIndicator (c : Char) : Bool :=
  c = ',' || c = '[' || c = ']' || c = '\x7b' || c = '\x7d'

def isIndicator (c : Char) : Bool :=
  isFlowIndicator c ||
    ['-', '?', ':', '#', '&', '*', '!', '|', '>', '\'', '"', '%', '@', '\x60'].contains c

def startsAt (flow : Bool) (c : Cursor) : Bool :=
  match c.head with
  | none => false
  | some b =>
    if isBlank b || isBreak b then false
    else if b = '-' then !endsWord (c.ahead 1)
    else if b = '?' || b = ':' then !flow && !endsWord (c.ahead 1)
    else !isIndicator b

/-- The characters up to the end of a word, last one first, and what follows.  Inside of a flow
collection a colon must not stand directly before an indicator. -/
def word (flow : Bool) (done : List Char) : List Char → Option (List Char × List Char)
  | [] => some (done, [])
  | c :: rest =>
    if isBlank c || isBreak c then some (done, c :: rest)
    else if flow && c = ':' && rest.head?.any fun d => d = '?' || isFlowIndicator d then none
    else if c = ':' && endsWord rest.head? then some (done, c :: rest)
    else if flow && isFlowIndicator c then some (done, c :: rest)
    else word flow (c :: done) rest

structure Scanned where
  text : List Char
  broken : Bool
  cursor : Cursor

def readOn (fuel : Nat) (flow : Bool) (indent : Nat) (done : List Char) (gap : Gap) (c : Cursor) :
    Option Scanned :=
  match fuel with
  | 0 => none
  | fuel + 1 =>
    if c.atMark || c.head = some '#' then some ⟨done, gap.broken, c⟩
    else
      match word flow [] c.rest with
      | none => none
      | some ([], _) => some ⟨done, gap.broken, c⟩
      | some (chars, _) =>
        let done := done ++ gap.folded ++ chars.reverse
        let c := c.skip chars.length
        if endsWord c.head && c.head.isSome then
          match Gap.read indent c with
          | none => none
          | some (gap, next) =>
            if !flow && next.column < indent then some ⟨done, gap.broken, next⟩
            else readOn fuel flow indent done gap next
        else some ⟨done, false, c⟩

def read (flow : Bool) (indent : Nat) (c : Cursor) : Option Scanned :=
  readOn (c.rest.length + 1) flow indent [] {} c

end ActionFlow.Yaml.Plain
