import ActionFlow.Document.Shape
import ActionFlow.Json.Literal

/-!
# Parsing JSON texts

A text is scanned into a draft from left to right; scanning stops at the first place that no
well-formed text could have.  `parse?` reads the draft as a value, `Draft.ofJsonText` hands it to
the readers of other types.  The depth limit of 127 levels and the range of numbers are left to the
readers, since they do not count for a value that is skipped.
-/
namespace ActionFlow

namespace Json.Scan

def isSpace (c : Char) : Bool := c = ' ' || c = '\n' || c = '\t' || c = '\r'

def skipSpace : List Char → List Char
  | [] => []
  | c :: rest => if isSpace c then skipSpace rest else c :: rest

theorem length_skipSpace_le (cs : List Char) : (skipSpace cs).length ≤ cs.length := by
  induction cs with
  | nil => simp [skipSpace]
  | cons c rest ih =>
    simp only [skipSpace]
    split
    · simp only [List.length_cons]
      omega
    · simp

/-- What scanning one value gives: its draft, and the text after it unless scanning stopped. -/
structure Scanned where
  draft : Draft
  rest : Option (List Char)

def stopped (b : Break) : Scanned := ⟨.broken b, none⟩

def word (value : Draft) : List Char → List Char → Scanned
  | [], cs => ⟨value, some cs⟩
  | _ :: _, [] => stopped (.plain .truncated)
  | w :: ws, c :: cs => if c = w then word value ws cs else stopped (.plain .malformed)

/-! ### Strings -/

def fourHex (cs : List Char) : Except Flaw (Nat × List Char) :=
  if (cs.take 4).foldl (fun n c => n + c.utf8Size) 0 < 4 then .error .truncated
  else match Scalar.digitsIn? 16 (cs.take 4), (cs.take 4).length with
    | some n, 4 => .ok (n, cs.drop 4)
    | _, _ => .error .malformed

def pair (high low : Nat) : Char := Char.ofNat (0x10000 + (high - 0xd800) * 0x400 + (low - 0xdc00))

def lowSurrogate (high : Nat) : List Char → Except Flaw (Char × List Char)
  | [] => .error .truncated
  | ['\\'] => .error .truncated
  | '\\' :: 'u' :: rest =>
    match fourHex rest with
    | .error f => .error f
    | .ok (low, rest) =>
      if 0xdc00 ≤ low ∧ low ≤ 0xdfff then .ok (pair high low, rest) else .error .malformed
  | _ :: _ => .error .malformed

/-- One piece of a string: characters with the text after them, or the flaw that ends scanning.
The flaw beside the characters counts only for a string that is read. -/
inductive Piece where
  | closed (rest : List Char)
  | char (c : Char) (rest : List Char)
  | lone (flaw : Flaw) (rest : List Char)
  | stop (flaw : Flaw)

def escape? (c : Char) : Option Char :=
  if c = '"' ∨ c = '\\' ∨ c = '/' then some c
  else if c = 'b' then some '\x08'
  else if c = 'f' then some '\x0c'
  else if c = 'n' then some '\n'
  else if c = 'r' then some '\r'
  else if c = 't' then some '\t'
  else none

def piece : List Char → Piece
  | [] => .stop .truncated
  | '"' :: rest => .closed rest
  | '\\' :: 'u' :: rest =>
    match fourHex rest with
    | .error f => .stop f
    | .ok (n, rest) =>
      if 0xd800 ≤ n ∧ n ≤ 0xdbff then
        match lowSurrogate n rest with
        | .ok (c, rest) => .char c rest
        | .error f => .lone f rest
      else if 0xdc00 ≤ n ∧ n ≤ 0xdfff then .lone .malformed rest
      else .char (Char.ofNat n) rest
  | ['\\'] => .stop .truncated
  | '\\' :: c :: rest =>
    match escape? c with
    | some e => .char e rest
    | none => .stop .malformed
  | c :: rest => if c.toNat < 0x20 then .stop .malformed else .char c rest

/-- Scans a string after its opening quote.  `done` holds the characters so far, last one first,
and `flaw` the first flaw that counts for a reader. -/
def string (fuel : Nat) (done : List Char) (flaw : Option Flaw) (cs : List Char) : Scanned :=
  match fuel with
  | 0 => stopped (.plain .truncated)
  | fuel + 1 =>
    match piece cs with
    | .closed rest =>
      let content := match flaw with
        | some f => .error f
        | none => .ok (String.ofList done.reverse)
      ⟨.text content, some rest⟩
    | .char c rest => string fuel (c :: done) flaw rest
    | .lone f rest => string fuel done (flaw.or (some f)) rest
    | .stop f => stopped ⟨flaw.getD f, f⟩

/-! ### Numbers -/

def unfinished (cs : List Char) : Break :=
  if cs = [] then ⟨.truncated, .malformed⟩ else .plain .malformed

def exponent (cs : List Char) : Except Break (Option Int × List Char) :=
  match cs with
  | [] => .ok (none, [])
  | c :: rest =>
    if c = 'e' ∨ c = 'E' then
      let (negative, rest) := match rest with
        | '-' :: tail => (true, tail)
        | '+' :: tail => (false, tail)
        | tail => (false, tail)
      match rest.takeWhile Char.isDigit with
      | [] => .error (unfinished rest)
      | digits =>
        let n := Decimal.digitsValue 0 digits
        .ok (some (if negative then -(n : Int) else n), rest.dropWhile Char.isDigit)
    else .ok (none, c :: rest)

def fraction (cs : List Char) : Except Break (Option (List Char) × List Char) :=
  match cs with
  | '.' :: rest =>
    match rest.takeWhile Char.isDigit with
    | [] => .error (unfinished rest)
    | digits => .ok (some digits, rest.dropWhile Char.isDigit)
  | _ => .ok (none, cs)

def whole (cs : List Char) : Except Break (List Char × List Char) :=
  match cs.takeWhile Char.isDigit with
  | [] => .error (unfinished cs)
  | '0' :: _ :: _ => .error (.plain .malformed)
  | digits => .ok (digits, cs.dropWhile Char.isDigit)

def literal (negative : Bool) (cs : List Char) : Except Break (Literal × List Char) := do
  let (digits, rest) ← whole cs
  let (places, rest) ← fraction rest
  let (power, rest) ← exponent rest
  .ok (⟨negative, digits, places, power⟩, rest)

def number (negative : Bool) (cs : List Char) : Scanned :=
  match literal negative cs with
  | .ok (l, rest) => ⟨.number l.number?, some rest⟩
  | .error b => stopped b

/-! ### Values -/

mutual
def value (fuel : Nat) (cs : List Char) : Scanned :=
  match fuel with
  | 0 => stopped (.plain .truncated)
  | fuel + 1 =>
    match skipSpace cs with
    | [] => stopped (.plain .truncated)
    | 'n' :: rest => word .null ['u', 'l', 'l'] rest
    | 't' :: rest => word (.bool true) ['r', 'u', 'e'] rest
    | 'f' :: rest => word (.bool false) ['a', 'l', 's', 'e'] rest
    | '"' :: rest => string (rest.length + 1) [] none rest
    | '-' :: rest => number true rest
    | '[' :: rest => items fuel true [] rest
    | '\x7b' :: rest => fields fuel true [] rest
    | c :: rest => if c.isDigit then number false (c :: rest) else stopped (.plain .malformed)

/-- Scans what follows in an array; `done` holds the items so far, last one first. -/
def items (fuel : Nat) (first : Bool) (done : List Draft) (cs : List Char) : Scanned :=
  match fuel with
  | 0 => stopped (.plain .truncated)
  | fuel + 1 =>
    let stop (f : Flaw) : Scanned := ⟨.array done.reverse (some (.plain f)), none⟩
    let item (cs : List Char) : Scanned :=
      let scanned := value fuel cs
      match scanned.rest with
      | some rest => items fuel false (scanned.draft :: done) rest
      | none => ⟨.array (scanned.draft :: done).reverse none, none⟩
    match skipSpace cs with
    | [] => stop .truncated
    | ']' :: rest => ⟨.array done.reverse none, some rest⟩
    | c :: rest =>
      if first then item (c :: rest)
      else if c = ',' then
        match skipSpace rest with
        | ']' :: _ => ⟨.array (.broken (.plain .malformed) :: done).reverse none, none⟩
        | cs => item cs
      else stop .malformed

def fields (fuel : Nat) (first : Bool) (done : List (Draft × Draft)) (cs : List Char) : Scanned :=
  match fuel with
  | 0 => stopped (.plain .truncated)
  | fuel + 1 =>
    let stop (f : Flaw) : Scanned := ⟨.object done.reverse (some (.plain f)), none⟩
    let last (key draft : Draft) : Scanned := ⟨.object ((key, draft) :: done).reverse none, none⟩
    let field (cs : List Char) : Scanned :=
      let key := string (cs.length + 1) [] none cs
      match key.rest with
      | none => last key.draft (.broken (.plain .malformed))
      | some rest =>
        match skipSpace rest with
        | [] => last key.draft (.broken (.plain .truncated))
        | ':' :: rest =>
          let scanned := value fuel rest
          match scanned.rest with
          | some rest => fields fuel false ((key.draft, scanned.draft) :: done) rest
          | none => last key.draft scanned.draft
        | _ :: _ => last key.draft (.broken (.plain .malformed))
    match skipSpace cs with
    | [] => stop .truncated
    | '\x7d' :: rest => ⟨.object done.reverse none, some rest⟩
    | c :: rest =>
      if first then if c = '"' then field rest else stop .malformed
      else if c = ',' then
        match skipSpace rest with
        | [] => stop .truncated
        | '"' :: rest => field rest
        | _ :: _ => stop .malformed
      else stop .malformed
end

/-- Scans a text; a second part after the value is a flaw that counts once the value is read. -/
def document (s : String) : Draft × Bool :=
  let cs := s.toList
  let scanned := value (2 * cs.length + 2) cs
  match scanned.rest with
  | some rest => (scanned.draft, skipSpace rest = [])
  | none => (scanned.draft, true)

end Json.Scan

def Draft.readJsonText {α : Type} (read : Origin → Draft → Except ReadError α) (s : String) :
    Except ReadError α := do
  let (draft, ended) := Json.Scan.document s
  let value ← read (.json 127) draft
  if ended then .ok value else .error (.flaw .malformed)

def Json.parse (s : String) : Except ReadError Json := Draft.readJsonText Draft.readAny s

end ActionFlow
