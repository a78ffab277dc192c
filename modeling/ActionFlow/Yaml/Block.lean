import ActionFlow.Yaml.Cursor

/-!
# Block scalars

A block scalar is a header line and the lines that are indented after it.  A literal one keeps its
breaks, a folded one joins lines that do not start with a blank.  The header says what becomes of
the breaks at the end, and may say how far the lines are indented.
-/
namespace ActionFlow.Yaml.Block

/-- What becomes of the breaks at the end. -/
inductive Chomping where
  | strip
  | clip
  | keep
  deriving DecidableEq

structure Header where
  chomping : Chomping := .clip
  increment : Option Nat := none

def chomping? (c : Char) : Option Chomping :=
  if c = '+' then some .keep else if c = '-' then some .strip else none

def increment? (c : Char) : Option Nat :=
  if '1' ≤ c ∧ c ≤ '9' then some (c.toNat - '0'.toNat) else none

/-- Reads the indicators of a header, at most one of each kind. -/
def header (c : Cursor) : Header × Cursor :=
  match c.head.bind chomping?, c.head.bind increment? with
  | some chomping, _ =>
    match (c.ahead 1).bind increment? with
    | some n => (⟨chomping, some n⟩, c.skip 2)
    | none => (⟨chomping, none⟩, c.skip 1)
  | none, some n =>
    match (c.ahead 1).bind chomping? with
    | some chomping => (⟨chomping, some n⟩, c.skip 2)
    | none => (⟨.clip, some n⟩, c.skip 1)
  | none, none => ({}, c)

def nextLine (c : Cursor) : Option Cursor :=
  let (_, c) := c.span isBlank
  let c := if c.head = some '#' then (c.span fun d => !isBreak d).2 else c
  match c.head with
  | none => some c
  | some b => if isBreak b then some c.skipBreak.2 else none

structure Margin where
  breaks : List Char
  widest : Nat
  cursor : Cursor

/-- Reads empty lines, and blanks up to `indent`; without one, all blanks. -/
def margin (fuel : Nat) (indent : Option Nat) (breaks : List Char) (widest : Nat) (c : Cursor) :
    Option Margin :=
  match fuel with
  | 0 => none
  | fuel + 1 =>
    let spaces := (c.rest.takeWhile (· = ' ')).length
    let c := c.skip (match indent with
      | some n => min spaces (n - c.column)
      | none => spaces)
    let widest := max widest c.column
    let early := match indent with
      | some n => c.column < n
      | none => true
    match c.head with
    | none => some ⟨breaks, widest, c⟩
    | some b =>
      if early && b = '\t' then none
      else if isBreak b then
        let (text, c) := c.skipBreak
        margin fuel indent (breaks ++ text) widest c
      else some ⟨breaks, widest, c⟩

structure Lines where
  done : List Char := []
  last : List Char := []
  breaks : List Char
  blankLed : Bool := false

/-- The break between two lines; a folded scalar joins them. -/
def Lines.joint (l : Lines) (folded blankLed : Bool) : List Char :=
  if folded && l.last = ['\n'] && !l.blankLed && !blankLed then
    if l.breaks = [] then [' '] else l.breaks
  else l.last ++ l.breaks

def lines (fuel : Nat) (folded : Bool) (indent : Nat) (l : Lines) (c : Cursor) :
    Option (Lines × Cursor) :=
  match fuel with
  | 0 => none
  | fuel + 1 =>
    match c.head with
    | none => some (l, c)
    | some b =>
      if c.column ≠ indent then some (l, c)
      else
        let blankLed := isBlank b
        let (text, c) := c.span fun d => !isBreak d
        let (last, c) := c.skipBreak
        match margin (c.rest.length + 1) (some indent) [] 0 c with
        | none => none
        | some m =>
          lines fuel folded indent
            ⟨l.done ++ l.joint folded blankLed ++ text, last, m.breaks, blankLed⟩ m.cursor

def Lines.close (l : Lines) (chomping : Chomping) : List Char :=
  match chomping with
  | .strip => l.done
  | .clip => l.done ++ l.last
  | .keep => l.done ++ l.last ++ l.breaks

/-- Reads the block scalar after its indicator.  The parent is indented by `parent`, which is
nothing outside of all collections. -/
def read (folded : Bool) (parent : Option Nat) (c : Cursor) : Option (List Char × Cursor) := do
  let (h, c) := header c
  let c ← nextLine c
  let given := h.increment.map fun n => parent.getD 0 + n
  let m ← margin (c.rest.length + 1) given [] 0 c
  let least := max 1 (match parent with
    | some n => n + 1
    | none => 0)
  let indent := given.getD (max m.widest least)
  let (l, c) ← lines (c.rest.length + 1) folded indent { breaks := m.breaks } m.cursor
  some (l.close h.chomping, c)

end ActionFlow.Yaml.Block
