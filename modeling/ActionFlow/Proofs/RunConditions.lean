import ActionFlow.Definition.Load
import ActionFlow.Proofs.ReadingRule

/-!
# Run conditions of documents

A null where a run condition is declared counts as none.  Only an unquoted scalar that reads as null
without being spelled so is taken for a condition, and no JSON text and no JSON value has unquoted
scalars.
-/
namespace ActionFlow

namespace Draft

/-- No value in the draft is an unquoted scalar. -/
inductive Quoted : Draft → Prop
  | null : Quoted .null
  | bool {value : Bool} : Quoted (.bool value)
  | number {value : Option Number} : Quoted (.number value)
  | text {content : Except Flaw String} : Quoted (.text content)
  | array {items : List Draft} {stop : Option Break} (inside : ∀ d ∈ items, Quoted d) :
      Quoted (.array items stop)
  | object {fields : List (Draft × Draft)} {stop : Option Break}
      (inside : ∀ field ∈ fields, Quoted field.2) : Quoted (.object fields stop)
  | broken {stop : Break} : Quoted (.broken stop)

mutual
theorem quoted_ofJson : ∀ j : Json, (ofJson j).Quoted
  | .null => .null
  | .bool _ => .bool
  | .number _ => .number
  | .text _ => .text
  | .array items => .array (quoted_ofItems items)
  | .object fields => .object (quoted_ofFields fields)

theorem quoted_ofItems : ∀ items : List Json, ∀ d ∈ ofItems items, d.Quoted
  | [] => nofun
  | j :: rest => List.forall_mem_cons.mpr ⟨quoted_ofJson j, quoted_ofItems rest⟩

theorem quoted_ofFields : ∀ fields : List (String × Json), ∀ field ∈ ofFields fields, field.2.Quoted
  | [] => nofun
  | (_, j) :: rest => List.forall_mem_cons.mpr ⟨quoted_ofJson j, quoted_ofFields rest⟩
end

/-- A quoted value that is not null does not read as null. -/
theorem Quoted.readOptional_ne {origin : Origin} {d : Draft} (h : d.Quoted) :
    d.readOptional (readAny origin) ≠ .ok (some .null) := by
  intro hr
  cases h with
  | null => cases hr
  | bool => cases hr
  | number => rename_i value; cases value <;> cases hr
  | text => rename_i content; cases content <;> cases hr
  | array inside | object inside =>
    obtain ⟨j, hj, he⟩ := map_eq_ok_iff.mp hr
    simp only [readAny, bind_eq_ok_iff, Except.ok.injEq] at hj
    obtain ⟨_, _, _, _, _, _, rfl⟩ := hj
    cases he
  | broken => cases hr

end Draft

namespace ActionDefinition

/-- No run condition of the action and of its error actions, at every depth, is null. -/
inductive NullFree : ActionDefinition → Prop
  | node {d : ActionDefinition} (own : d.runCondition ≠ some .null)
      (recovery : ∀ b ∈ d.errorActions, NullFree b) : NullFree d

structure Partial.NullFree (p : Partial) : Prop where
  own : p.runCondition ≠ some (some .null)
  recovery : ∀ b ∈ p.errorActions.getD [], b.NullFree

theorem nullFree_ofPartial {p : Partial} {d : ActionDefinition} (h : p.NullFree)
    (hd : ofPartial p = .ok d) : d.NullFree := by
  simp only [ofPartial, bind_eq_ok_iff, Except.ok.injEq] at hd
  obtain ⟨_, _, _, _, rfl⟩ := hd
  have hown := h.own
  refine .node ?_ h.recovery
  show p.runCondition.getD none ≠ some .null
  cases hp : p.runCondition with
  | none => exact nofun
  | some condition =>
    intro he
    have hnull : condition = some .null := he
    rw [hp, hnull] at hown
    exact hown rfl

theorem nullFree_readField {origin : Origin} {p q : Partial} {name : String} {d : Draft}
    (hd : d.Quoted) (h : p.NullFree) (hq : readField origin p name d = .ok q) : q.NullFree := by
  simp only [readField] at hq
  split at hq <;> simp only [bind_eq_ok_iff, Except.ok.injEq] at hq
  case h_6 =>
    obtain ⟨slot, hslot, rfl⟩ := hq
    obtain ⟨condition, hcondition, rfl⟩ := once_eq_ok hslot
    refine ⟨?_, h.recovery⟩
    intro he
    have hnull : condition = some .null := Option.some.inj he
    exact hd.readOptional_ne (hnull ▸ hcondition)
  all_goals
    obtain ⟨_, _, rfl⟩ := hq
    exact ⟨h.own, h.recovery⟩

theorem nullFree_rule : ReadingRule Draft.Quoted Partial.NullFree NullFree where
  items := by
    rintro _ _ ⟨⟩
    assumption
  fields := by
    rintro _ _ ⟨⟩
    assumption
  start := ⟨nofun, nofun⟩
  field _ := nullFree_readField
  recovery h hactions := ⟨h.own, hactions⟩
  done := nullFree_ofPartial

theorem nullFree_childActions {d : ActionDefinition} {setting : String}
    {actions : List ActionDefinition} (h : d.childActions setting = .ok actions) :
    ∀ a ∈ actions, a.NullFree := by
  unfold childActions at h
  split at h
  · cases h
    rintro _ ⟨⟩
  · exact nullFree_rule.readList (Draft.quoted_ofJson _) (mapError_eq_ok_iff.mp h)

end ActionDefinition

/-! ### JSON texts -/

namespace Json.Scan

theorem quoted_word {value : Draft} (h : value.Quoted) (letters cs : List Char) :
    (word value letters cs).draft.Quoted := by
  induction letters generalizing cs with
  | nil => exact h
  | cons w ws ih =>
    cases cs with
    | nil => exact .broken
    | cons c cs =>
      unfold word
      split
      · exact ih cs
      · exact .broken

theorem quoted_string (fuel : Nat) (done : List Char) (flaw : Option Flaw) (cs : List Char) :
    (string fuel done flaw cs).draft.Quoted := by
  induction fuel generalizing done flaw cs with
  | zero => exact .broken
  | succ fuel ih =>
    unfold string
    split
    · exact .text
    · exact ih _ _ _
    · exact ih _ _ _
    · exact .broken

theorem quoted_number (negative : Bool) (cs : List Char) : (number negative cs).draft.Quoted := by
  unfold number
  split
  · exact .number
  · exact .broken

/-- With so much fuel, what is scanned is quoted, given that what was scanned before it is. -/
structure ScansQuoted (fuel : Nat) : Prop where
  value : ∀ cs, (value fuel cs).draft.Quoted
  items : ∀ first done cs, (∀ d ∈ done, d.Quoted) → (items fuel first done cs).draft.Quoted
  fields : ∀ first (done : List (Draft × Draft)) cs, (∀ field ∈ done, field.2.Quoted) →
    (fields fuel first done cs).draft.Quoted

theorem ScansQuoted.value_succ {fuel : Nat} (h : ScansQuoted fuel) (cs : List Char) :
    (Scan.value (fuel + 1) cs).draft.Quoted := by
  unfold Scan.value
  split
  · exact .broken
  · exact quoted_word .null _ _
  · exact quoted_word .bool _ _
  · exact quoted_word .bool _ _
  · exact quoted_string _ _ _ _
  · exact quoted_number _ _
  · exact h.items _ _ _ nofun
  · exact h.fields _ _ _ nofun
  · split
    · exact quoted_number _ _
    · exact .broken

/-- An item and those behind it, as they are scanned behind other items. -/
def itemsFrom (fuel : Nat) (done : List Draft) (cs : List Char) : Scanned :=
  match (value fuel cs).rest with
  | some rest => items fuel false ((value fuel cs).draft :: done) rest
  | none => ⟨.array ((value fuel cs).draft :: done).reverse none, none⟩

theorem ScansQuoted.itemsFrom {fuel : Nat} (h : ScansQuoted fuel) {done : List Draft}
    (hdone : ∀ d ∈ done, d.Quoted) (cs : List Char) : (itemsFrom fuel done cs).draft.Quoted := by
  have hadd : ∀ d ∈ (Scan.value fuel cs).draft :: done, d.Quoted :=
    List.forall_mem_cons.mpr ⟨h.value cs, hdone⟩
  unfold Scan.itemsFrom
  split
  · exact h.items _ _ _ hadd
  · exact .array fun d hd => hadd d (List.mem_reverse.mp hd)

theorem ScansQuoted.items_succ {fuel : Nat} (h : ScansQuoted fuel) (first : Bool)
    {done : List Draft} (hdone : ∀ d ∈ done, d.Quoted) (cs : List Char) :
    (Scan.items (fuel + 1) first done cs).draft.Quoted := by
  have hended : ∀ stop, (Draft.array done.reverse stop).Quoted := fun stop =>
    .array fun d hd => hdone d (List.mem_reverse.mp hd)
  have hbroken : ∀ d ∈ Draft.broken (.plain .malformed) :: done, d.Quoted :=
    List.forall_mem_cons.mpr ⟨.broken, hdone⟩
  unfold Scan.items
  dsimp only
  split
  · exact hended _
  · exact hended _
  · split
    · exact h.itemsFrom hdone _
    split
    · split
      · exact .array fun d hd => hbroken d (List.mem_reverse.mp hd)
      · exact h.itemsFrom hdone _
    · exact hended _

/-- A field from its colon on and those behind it, as they are scanned behind other fields. -/
def fieldsFrom (fuel : Nat) (done : List (Draft × Draft)) (key : Draft) (cs : List Char) :
    Scanned :=
  match skipSpace cs with
  | [] => ⟨.object ((key, .broken (.plain .truncated)) :: done).reverse none, none⟩
  | ':' :: rest =>
    match (value fuel rest).rest with
    | some rest' => fields fuel false ((key, (value fuel rest).draft) :: done) rest'
    | none => ⟨.object ((key, (value fuel rest).draft) :: done).reverse none, none⟩
  | _ :: _ => ⟨.object ((key, .broken (.plain .malformed)) :: done).reverse none, none⟩

theorem quoted_fieldsEnd {done : List (Draft × Draft)} (hdone : ∀ field ∈ done, field.2.Quoted)
    (key : Draft) {d : Draft} (hd : d.Quoted) :
    (Draft.object ((key, d) :: done).reverse none).Quoted := by
  have hall : ∀ field ∈ (key, d) :: done, field.2.Quoted := List.forall_mem_cons.mpr ⟨hd, hdone⟩
  exact .object fun field hf => hall field (List.mem_reverse.mp hf)

theorem ScansQuoted.fieldsFrom {fuel : Nat} (h : ScansQuoted fuel) {done : List (Draft × Draft)}
    (hdone : ∀ field ∈ done, field.2.Quoted) (key : Draft) (cs : List Char) :
    (fieldsFrom fuel done key cs).draft.Quoted := by
  unfold Scan.fieldsFrom
  split
  · exact quoted_fieldsEnd hdone key .broken
  · split
    · exact h.fields _ _ _ (List.forall_mem_cons.mpr ⟨h.value _, hdone⟩)
    · exact quoted_fieldsEnd hdone key (h.value _)
  · exact quoted_fieldsEnd hdone key .broken

theorem ScansQuoted.fields_succ {fuel : Nat} (h : ScansQuoted fuel) (first : Bool)
    {done : List (Draft × Draft)} (hdone : ∀ field ∈ done, field.2.Quoted) (cs : List Char) :
    (Scan.fields (fuel + 1) first done cs).draft.Quoted := by
  have hended : ∀ stop, (Draft.object done.reverse stop).Quoted := fun stop =>
    .object fun field hf => hdone field (List.mem_reverse.mp hf)
  unfold Scan.fields
  dsimp only
  split
  · exact hended _
  · exact hended _
  · split
    · split
      · split
        · exact quoted_fieldsEnd hdone _ .broken
        · exact h.fieldsFrom hdone _ _
      · exact hended _
    · split
      · split
        · exact hended _
        · split
          · exact quoted_fieldsEnd hdone _ .broken
          · exact h.fieldsFrom hdone _ _
        · exact hended _
      · exact hended _

/-- Values, items and fields are scanned with fuel that all three go down in. -/
theorem scansQuoted (fuel : Nat) : ScansQuoted fuel := by
  induction fuel with
  | zero =>
    constructor
    · intro cs
      rw [Scan.value]
      exact .broken
    · intro first done cs _
      rw [Scan.items]
      exact .broken
    · intro first done cs _
      rw [Scan.fields]
      exact .broken
  | succ fuel ih =>
    exact ⟨ih.value_succ, fun first _ cs hdone => ih.items_succ first hdone cs,
      fun first _ cs hdone => ih.fields_succ first hdone cs⟩

theorem quoted_document (s : String) : (document s).1.Quoted := by
  unfold document
  dsimp only
  split
  · exact (scansQuoted _).value _
  · exact (scansQuoted _).value _

end Json.Scan

namespace Definition

/-- What JSON gives is read of a draft without unquoted scalars. -/
theorem exists_read_of_json {definition : Definition}
    (h : (∃ j, ofJson j = .ok definition) ∨
      ∃ path text, Format.json.parse read path text = .ok definition) :
    ∃ origin d, Draft.Quoted d ∧ read origin d = .ok definition := by
  rcases h with ⟨j, h⟩ | ⟨path, text, h⟩
  · exact ⟨.value, _, Draft.quoted_ofJson j, h⟩
  · have hread := mapError_eq_ok_iff.mp h
    simp only [Draft.readJsonText, bind_eq_ok_iff] at hread
    obtain ⟨value, hvalue, hended⟩ := hread
    split at hended
    · cases hended
      exact ⟨_, _, Json.Scan.quoted_document text, hvalue⟩
    · cases hended

/-- In a definition from a JSON value or a JSON text no run condition is null. -/
theorem nullFree_of_json {definition : Definition}
    (h : (∃ j, ofJson j = .ok definition) ∨
      ∃ path text, Format.json.parse read path text = .ok definition) :
    ∀ a ∈ definition.actions, a.NullFree := by
  obtain ⟨origin, d, hquoted, hread⟩ := exists_read_of_json h
  exact ActionDefinition.nullFree_rule.definition hquoted hread

end Definition

end ActionFlow
