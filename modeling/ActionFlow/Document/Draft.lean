import ActionFlow.Json.Basic

/-!
# Drafts of documents

What a text says before it is known what it should say.  A draft keeps the fields of an object in
the order of the text, repeated keys included, and it may end in a break, where the text stopped to
be well formed.  A reader that walks a draft in order meets a wrong value and a break in the order
in which they stand in the text, and reports the first.

A few flaws count only for a value that is read and not for one that is skipped: a number beyond
the doubles, half of a surrogate pair, levels nested too deep.  `Draft.skip` walks over a value
without them.
-/
namespace ActionFlow

inductive Flaw where
  | truncated
  | malformed
  deriving DecidableEq, Repr

/-- A place where a text stops to be well formed. -/
structure Break where
  /-- The flaw when the value there is read. -/
  whenRead : Flaw
  /-- The flaw when the value there is skipped. -/
  whenSkipped : Flaw
  deriving DecidableEq, Repr

/-- A break that counts alike for reading and skipping. -/
def Break.plain (flaw : Flaw) : Break := ⟨flaw, flaw⟩

/-- What a text says, as far as it is well formed. -/
inductive Draft where
  | null
  | bool (value : Bool)
  /-- A number, or a number beyond the doubles. -/
  | number (value : Option Number)
  /-- A quoted text, or the flaw of its escapes. -/
  | text (content : Except Flaw String)
  /-- An unquoted scalar, whose type is up to the reader. -/
  | plain (content : String)
  /-- Items in order, and the break before the closing bracket if there is one. -/
  | array (items : List Draft) (stop : Option Break)
  /-- Fields in order, and the break before the closing brace if there is one. -/
  | object (fields : List (Draft × Draft)) (stop : Option Break)
  /-- No value: the text breaks here. -/
  | broken (stop : Break)
  deriving Inhabited

namespace Draft

mutual
def ofJson : Json → Draft
  | .null => null
  | .bool b => bool b
  | .number n => number (some n)
  | .text s => text (.ok s)
  | .array items => array (ofItems items) none
  | .object fields => object (ofFields fields) none

def ofItems : List Json → List Draft
  | [] => []
  | j :: rest => ofJson j :: ofItems rest

def ofFields : List (String × Json) → List (Draft × Draft)
  | [] => []
  | (key, j) :: rest => (text (.ok key), ofJson j) :: ofFields rest
end

def skipStop : Option Break → Except Flaw Unit
  | none => .ok ()
  | some b => .error b.whenSkipped

mutual
def skip : Draft → Except Flaw Unit
  | null | bool _ | number _ | text _ | plain _ => .ok ()
  | array items stop => do skipItems items; skipStop stop
  | object fields stop => do skipFields fields; skipStop stop
  | broken b => .error b.whenSkipped

def skipItems : List Draft → Except Flaw Unit
  | [] => .ok ()
  | d :: rest => do skip d; skipItems rest

def skipFields : List (Draft × Draft) → Except Flaw Unit
  | [] => .ok ()
  | (key, d) :: rest => do skip key; skip d; skipFields rest
end

mutual
theorem skip_ofJson : ∀ j : Json, skip (ofJson j) = .ok ()
  | .null | .bool _ | .number _ | .text _ => rfl
  | .array items => by
    simp only [ofJson, skip, skipItems_ofItems items]
    rfl
  | .object fields => by
    simp only [ofJson, skip, skipFields_ofFields fields]
    rfl

theorem skipItems_ofItems : ∀ items : List Json, skipItems (ofItems items) = .ok ()
  | [] => rfl
  | j :: rest => by
    simp only [ofItems, skipItems, skip_ofJson j, skipItems_ofItems rest]
    rfl

theorem skipFields_ofFields : ∀ fields : List (String × Json), skipFields (ofFields fields) = .ok ()
  | [] => rfl
  | (key, j) :: rest => by
    simp only [ofFields, skipFields, skip, skip_ofJson j, skipFields_ofFields rest]
    rfl
end

end Draft

end ActionFlow
