/-!
# Places in a YAML text

A cursor is a place in a text: what follows, and the line and column.  A gap is what stands between
two pieces of a scalar, blanks and line breaks, and `Gap.folded` is what it stands for: one break
becomes a space, and of several the first is dropped.
-/
namespace ActionFlow.Yaml

def isBlank (c : Char) : Bool := c = ' ' || c = '\t'

def isBreak (c : Char) : Bool :=
  c = '\n' || c = '\r' || c = '\x85' || c = '\u2028' || c = '\u2029'

/-- Whether nothing but the end of a word can stand here: a blank, a break or the end. -/
def endsWord : Option Char → Bool
  | none => true
  | some c => isBlank c || isBreak c

def isAllowed (c : Char) : Bool :=
  let code := c.toNat
  c = '\t' || c = '\n' || c = '\r' || (0x20 ≤ code && code ≤ 0x7e) || code == 0x85 ||
    (0xa0 ≤ code && code ≤ 0xfffd) || 0x10000 ≤ code

/-- A place in a text. -/
structure Cursor where
  rest : List Char
  line : Nat
  column : Nat
  index : Nat

namespace Cursor

def start (cs : List Char) : Cursor := ⟨cs, 0, 0, 0⟩

def head (c : Cursor) : Option Char := c.rest.head?

def ahead (c : Cursor) (n : Nat) : Option Char := c.rest[n]?

def byteSize (cs : List Char) : Nat := cs.foldl (fun n c => n + c.utf8Size) 0

def skip (c : Cursor) (n : Nat) : Cursor :=
  ⟨c.rest.drop n, c.line, c.column + n, c.index + byteSize (c.rest.take n)⟩

/-- The place after a break, with the text that the break stands for. -/
def skipBreak (c : Cursor) : List Char × Cursor :=
  match c.rest with
  | '\r' :: '\n' :: rest => (['\n'], ⟨rest, c.line + 1, 0, c.index + 2⟩)
  | b :: rest =>
    (if b = '\u2028' ∨ b = '\u2029' then [b] else ['\n'], ⟨rest, c.line + 1, 0, c.index + b.utf8Size⟩)
  | [] => ([], c)

/-- The place after characters that satisfy a test, with these characters; none of them is a
break. -/
def span (c : Cursor) (p : Char → Bool) : List Char × Cursor :=
  let taken := c.rest.takeWhile p
  (taken, c.skip taken.length)

/-- The place after a byte order mark at the start of a line, if there is one. -/
def skipOrderMark (c : Cursor) : Cursor :=
  if c.column = 0 ∧ c.head = some '\ufeff' then c.skip 1 else c

def atMark (c : Cursor) : Bool :=
  c.column = 0 && (c.rest.take 3 = ['-', '-', '-'] || c.rest.take 3 = ['.', '.', '.']) &&
    endsWord (c.ahead 3)

end Cursor

/-! ### Gaps -/

/-- Blanks and breaks between two pieces of a scalar. -/
structure Gap where
  blanks : List Char := []
  first : List Char := []
  more : List Char := []
  broken : Bool := false

namespace Gap

def folded (g : Gap) : List Char :=
  if g.broken then
    if g.first = ['\n'] then if g.more = [] then [' '] else g.more
    else g.first ++ g.more
  else g.blanks

/-- Reads on from a gap.  After a break a tab that stands before column `indent` is refused. -/
def readOn (fuel indent : Nat) (g : Gap) (c : Cursor) : Option (Gap × Cursor) :=
  match fuel with
  | 0 => none
  | fuel + 1 =>
    match c.head with
    | none => some (g, c)
    | some b =>
      if isBlank b then
        if g.broken then
          if b = '\t' ∧ c.column < indent then none else readOn fuel indent g (c.skip 1)
        else readOn fuel indent { g with blanks := g.blanks ++ [b] } (c.skip 1)
      else if isBreak b then
        let (text, c) := c.skipBreak
        if g.broken then readOn fuel indent { g with more := g.more ++ text } c
        else readOn fuel indent ⟨[], text, [], true⟩ c
      else some (g, c)

def read (indent : Nat) (c : Cursor) : Option (Gap × Cursor) :=
  readOn (c.rest.length + 1) indent {} c

end Gap

end ActionFlow.Yaml
