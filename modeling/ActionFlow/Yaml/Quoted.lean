import ActionFlow.Document.Scalar
import ActionFlow.Yaml.Cursor

/-!
# Quoted scalars

A scalar between single quotes writes the quote twice and has no escapes; one between double quotes
has escapes with a backslash, also for the end of a line.  Line breaks fold in both.
-/
namespace ActionFlow.Yaml.Quoted

def escape? (c : Char) : Option Char :=
  if c = '0' then some '\x00'
  else if c = 'a' then some '\x07'
  else if c = 'b' then some '\x08'
  else if c = 't' ∨ c = '\t' then some '\t'
  else if c = 'n' then some '\n'
  else if c = 'v' then some '\x0b'
  else if c = 'f' then some '\x0c'
  else if c = 'r' then some '\r'
  else if c = 'e' then some '\x1b'
  else if c = ' ' ∨ c = '"' ∨ c = '/' ∨ c = '\\' then some c
  else if c = 'N' then some '\x85'
  else if c = '_' then some '\xa0'
  else if c = 'L' then some '\u2028'
  else if c = 'P' then some '\u2029'
  else none

def codeLength? (c : Char) : Option Nat :=
  if c = 'x' then some 2
  else if c = 'u' then some 4
  else if c = 'U' then some 8
  else none

def ofCode? (n : Nat) : Option Char :=
  if n < 0xd800 ∨ (0xdfff < n ∧ n ≤ 0x10ffff) then some (Char.ofNat n) else none

/-- A run of characters between gaps. -/
structure Run where
  chars : List Char
  /-- Whether the run ends with an escaped break, which starts a gap. -/
  escaped : Bool
  cursor : Cursor

def run (fuel : Nat) (double : Bool) (done : List Char) (c : Cursor) : Option Run :=
  match fuel with
  | 0 => none
  | fuel + 1 =>
    match c.rest with
    | [] => none
    | b :: rest =>
      if isBlank b || isBreak b then some ⟨done, false, c⟩
      else if !double && b = '\'' then
        if rest.head? = some '\'' then run fuel double ('\'' :: done) (c.skip 2)
        else some ⟨done, false, c⟩
      else if double && b = '"' then some ⟨done, false, c⟩
      else if double && b = '\\' then
        match rest with
        | [] => none
        | e :: rest =>
          if isBreak e then some ⟨done, true, ((c.skip 1).skipBreak).2⟩
          else
            match escape? e, codeLength? e with
            | some d, _ => run fuel double (d :: done) (c.skip 2)
            | none, some n =>
              if (rest.take n).length = n then
                match (Scalar.digitsIn? 16 (rest.take n)).bind ofCode? with
                | some d => run fuel double (d :: done) (c.skip (n + 2))
                | none => none
              else none
            | none, none => none
      else run fuel double (b :: done) (c.skip 1)

/-- Reads on from a run; `done` holds the text so far. -/
def readOn (fuel : Nat) (double : Bool) (done : List Char) (c : Cursor) :
    Option (List Char × Cursor) :=
  match fuel with
  | 0 => none
  | fuel + 1 =>
    if c.atMark then none
    else
      match run (c.rest.length + 1) double [] c with
      | none => none
      | some r =>
        let done := done ++ r.chars.reverse
        let gap : Gap := { broken := r.escaped }
        if !r.escaped && r.cursor.head = some (if double then '"' else '\'') then
          some (done, r.cursor.skip 1)
        else
          match Gap.readOn (r.cursor.rest.length + 1) 0 gap r.cursor with
          | none => none
          | some (gap, next) => readOn fuel double (done ++ gap.folded) next

def read (double : Bool) (c : Cursor) : Option (List Char × Cursor) :=
  readOn (c.rest.length + 1) double [] c

end ActionFlow.Yaml.Quoted
