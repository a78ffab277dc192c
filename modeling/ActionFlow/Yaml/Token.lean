import ActionFlow.Yaml.Block
import ActionFlow.Yaml.Plain
import ActionFlow.Yaml.Quoted

/-!
# Tokens of YAML texts

A text becomes a list of tokens in which indentation has turned into starts and ends of collections.
A key of a mapping shows as one only when the colon after it is met; so the scanner remembers where
a key may have started, and puts the tokens of the key there afterwards.
-/
namespace ActionFlow.Yaml

inductive Token where
  | documentStart
  | documentEnd
  | sequenceStart
  | mappingStart
  | blockEnd
  | flowSequenceStart
  | flowSequenceEnd
  | flowMappingStart
  | flowMappingEnd
  | item
  | comma
  | key
  | value
  | plain (text : List Char)
  | quoted (text : List Char)
  deriving DecidableEq

/-- A place at which a key may have started. -/
structure KeySite where
  /-- Whether a line must not go on without the colon of a key. -/
  required : Bool
  position : Nat
  line : Nat
  column : Nat
  index : Nat

structure Scanner where
  cursor : Cursor
  /-- The columns of the open collections that are shown by indentation, innermost first. -/
  indents : List Nat := []
  /-- The possible key of the block and of each open flow collection, innermost first. -/
  sites : List (Option KeySite) := [none]
  keyAllowed : Bool := true
  /-- The tokens so far, last one first. -/
  tokens : List Token := []
  count : Nat := 0

namespace Scanner

def inFlow (s : Scanner) : Bool := 1 < s.sites.length

def indent? (s : Scanner) : Option Nat := s.indents.head?

def emit (s : Scanner) (t : Token) : Scanner :=
  { s with tokens := t :: s.tokens, count := s.count + 1 }

/-- Puts an element behind the first `n`. -/
def putBehind (n : Nat) (t : Token) (tokens : List Token) : List Token :=
  tokens.take n ++ t :: tokens.drop n

def emitAt (s : Scanner) (position : Nat) (t : Token) : Scanner :=
  { s with tokens := putBehind (s.count - position) t s.tokens, count := s.count + 1 }

/-- Closes the collections whose column is beyond `column`; without one, all of them. -/
def closeBlocks (s : Scanner) (column : Option Nat) : Scanner :=
  if s.inFlow then s
  else
    let beyond (n : Nat) : Bool := column.all (· < n)
    let closed := s.indents.takeWhile beyond
    { s with
      indents := s.indents.dropWhile beyond
      tokens := closed.map (fun _ => .blockEnd) ++ s.tokens
      count := s.count + closed.length }

def openBlock (s : Scanner) (column position : Nat) (t : Token) : Scanner :=
  if s.inFlow || s.indent?.any (column ≤ ·) then s
  else { s.emitAt position t with indents := column :: s.indents }

def site? (s : Scanner) : Option KeySite := s.sites.head?.join

def withSite (s : Scanner) (site : Option KeySite) : Scanner :=
  { s with sites := site :: s.sites.drop 1 }

def dropSite (s : Scanner) : Option Scanner :=
  if s.site?.any KeySite.required then none else some (s.withSite none)

/-- Gives up the possible keys that a line or too many bytes lie behind. -/
def dropStale (s : Scanner) : Option Scanner :=
  let stale (site : KeySite) : Bool :=
    site.line < s.cursor.line || site.index + 1024 < s.cursor.index
  if s.sites.any fun site => site.any fun k => stale k && k.required then none
  else some { s with sites := s.sites.map fun site => site.filter fun k => !stale k }

def saveSite (s : Scanner) : Option Scanner :=
  if s.keyAllowed then do
    let s ← s.dropSite
    let c := s.cursor
    let required := !s.inFlow && s.indent? = some c.column
    some (s.withSite (some ⟨required, s.count, c.line, c.column, c.index⟩))
  else some s

/-- Goes to the next token, past blanks, comments and breaks; a line may start with a byte order
mark. -/
def skipToToken (fuel : Nat) (s : Scanner) : Scanner :=
  match fuel with
  | 0 => s
  | fuel + 1 =>
    let tabs := s.inFlow || !s.keyAllowed
    let (_, c) := s.cursor.skipOrderMark.span fun b => b = ' ' || (tabs && b = '\t')
    let c := if c.head = some '#' then (c.span fun b => !isBreak b).2 else c
    if c.head.any isBreak then
      skipToToken fuel
        { s with cursor := c.skipBreak.2, keyAllowed := s.keyAllowed || !s.inFlow }
    else { s with cursor := c }

/-! ### Tokens -/

def documentMark (s : Scanner) (t : Token) : Option Scanner := do
  let s ← (s.closeBlocks none).dropSite
  some { s.emit t with cursor := s.cursor.skip 3, keyAllowed := false }

def flowStart (s : Scanner) (t : Token) : Option Scanner := do
  let s ← s.saveSite
  some { s.emit t with
    cursor := s.cursor.skip 1, sites := none :: s.sites, keyAllowed := true }

def flowEnd (s : Scanner) (t : Token) : Option Scanner := do
  let s ← s.dropSite
  let sites := if s.inFlow then s.sites.drop 1 else s.sites
  some { s.emit t with cursor := s.cursor.skip 1, sites := sites, keyAllowed := false }

def comma (s : Scanner) : Option Scanner := do
  let s ← s.dropSite
  some { s.emit .comma with cursor := s.cursor.skip 1, keyAllowed := true }

def item (s : Scanner) : Option Scanner :=
  if !s.inFlow && !s.keyAllowed then none
  else do
    let s ← (s.openBlock s.cursor.column s.count .sequenceStart).dropSite
    some { s.emit .item with cursor := s.cursor.skip 1, keyAllowed := true }

def explicitKey (s : Scanner) : Option Scanner :=
  if !s.inFlow && !s.keyAllowed then none
  else do
    let s ← (s.openBlock s.cursor.column s.count .mappingStart).dropSite
    some { s.emit .key with cursor := s.cursor.skip 1, keyAllowed := !s.inFlow }

/-- A colon before a value.  What stands before it becomes a key, which may open a mapping. -/
def value (s : Scanner) : Option Scanner :=
  match s.site? with
  | some site =>
    let s := (s.emitAt site.position .key).openBlock site.column site.position .mappingStart
    some { (s.withSite none).emit .value with cursor := s.cursor.skip 1, keyAllowed := false }
  | none =>
    if !s.inFlow && !s.keyAllowed then none
    else
      let s := s.openBlock s.cursor.column s.count .mappingStart
      some { s.emit .value with cursor := s.cursor.skip 1, keyAllowed := !s.inFlow }

def block (s : Scanner) (folded : Bool) : Option Scanner := do
  let s ← s.dropSite
  let (text, c) ← Block.read folded s.indent? (s.cursor.skip 1)
  some { s.emit (.quoted text) with cursor := c, keyAllowed := true }

def quotedScalar (s : Scanner) (double : Bool) : Option Scanner := do
  let s ← s.saveSite
  let (text, c) ← Quoted.read double (s.cursor.skip 1)
  some { s.emit (.quoted text) with cursor := c, keyAllowed := false }

def plainScalar (s : Scanner) : Option Scanner := do
  let s ← s.saveSite
  let indent := match s.indent? with
    | some n => n + 1
    | none => 0
  let scanned ← Plain.read s.inFlow indent s.cursor
  some { s.emit (.plain scanned.text) with cursor := scanned.cursor, keyAllowed := scanned.broken }

def token (s : Scanner) (c : Char) : Option Scanner :=
  let wordEnds := endsWord (s.cursor.ahead 1)
  if s.cursor.column = 0 && c = '%' then none
  else if s.cursor.atMark then s.documentMark (if c = '-' then .documentStart else .documentEnd)
  else if c = '[' then s.flowStart .flowSequenceStart
  else if c = '\x7b' then s.flowStart .flowMappingStart
  else if c = ']' then s.flowEnd .flowSequenceEnd
  else if c = '\x7d' then s.flowEnd .flowMappingEnd
  else if c = ',' then s.comma
  else if c = '-' && wordEnds then s.item
  else if c = '?' && (s.inFlow || wordEnds) then s.explicitKey
  else if c = ':' && (s.inFlow || wordEnds) then s.value
  else if c = '|' && !s.inFlow then s.block false
  else if c = '>' && !s.inFlow then s.block true
  else if c = '\'' then s.quotedScalar false
  else if c = '"' then s.quotedScalar true
  else if Plain.startsAt s.inFlow s.cursor then s.plainScalar
  else none

def scan (fuel : Nat) (s : Scanner) : Option (List Token) :=
  match fuel with
  | 0 => none
  | fuel + 1 => do
    let s ← (skipToToken (s.cursor.rest.length + 1) s).dropStale
    match s.cursor.head with
    | none =>
      let s ← (s.closeBlocks none).dropSite
      some s.tokens.reverse
    | some c => scan fuel (← (s.closeBlocks (some s.cursor.column)).token c)

end Scanner

def tokens? (text : String) : Option (List Token) :=
  let cs := text.toList
  if cs.all isAllowed then Scanner.scan (cs.length + 2) { cursor := .start cs } else none

end ActionFlow.Yaml
