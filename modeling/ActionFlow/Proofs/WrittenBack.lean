import ActionFlow.Proofs.Orderly
import ActionFlow.Proofs.RunConditions

/-!
# Definitions written back

A definition is written with its declared fields first and the settings of each action behind them.
As all of these have names of their own, they are read one by one as what was written.  Only a run
condition that is null is lost, and no definition from JSON has one.
-/
namespace ActionFlow

namespace Draft

theorem once_of_ok {α : Type} {slot : Option α} {name : String} {read : Except ReadError α} {a : α}
    (hslot : slot = none) (h : read = .ok a) : once slot name read = .ok (some a) := by
  rw [hslot, h]
  rfl

theorem readOptional_ofJson {α : Type} {read : Draft → Except ReadError α} {j : Json}
    (hj : j ≠ .null) : (ofJson j).readOptional read = (read (ofJson j)).map some := by
  cases j with
  | null => exact absurd rfl hj
  | bool | number | text | array | object => rfl

theorem readList_ofJson {α : Type} {read : Origin → Draft → Except ReadError α} {write : α → Json}
    {xs : List α} (h : ∀ x ∈ xs, read .value (ofJson (write x)) = .ok x) :
    (ofJson (.array (xs.map write))).readList .value read = .ok xs := by
  simp only [ofJson, readList, bind_eq_ok_iff]
  exact ⟨.value, rfl, xs, readItems_map h, (), rfl, rfl⟩

end Draft

namespace Json

theorem fieldsDistinct_append {xs ys : Entries Json} (hx : FieldsDistinct xs)
    (hy : FieldsDistinct ys) (hapart : ∀ name ∈ Entries.keys ys, name ∉ Entries.keys xs) :
    FieldsDistinct (xs ++ ys) where
  keys := by
    rw [Entries.keys_append, List.nodup_append]
    refine ⟨hx.keys, hy.keys, ?_⟩
    rintro name hname _ hother rfl
    exact hapart name hother hname
  inside := by
    intro field hf
    rcases List.mem_append.mp hf with hf | hf
    · exact hx.inside field hf
    · exact hy.inside field hf

theorem keys_optionalField_sublist (name : String) (o : Option Json) :
    (Entries.keys (optionalField name o)).Sublist [name] := by
  cases o with
  | none => exact List.nil_sublist _
  | some j => exact List.Sublist.refl _

theorem keys_listField_sublist (name : String) (items : List Json) :
    (Entries.keys (listField name items)).Sublist [name] := by
  cases items with
  | nil => exact List.nil_sublist _
  | cons j rest => exact List.Sublist.refl _

theorem keysDistinct_optionalField (name : String) {o : Option Json}
    (h : ∀ j ∈ o, j.KeysDistinct) : ∀ field ∈ optionalField name o, field.2.KeysDistinct := by
  cases o with
  | none => exact nofun
  | some j => exact List.forall_mem_singleton.mpr (h j rfl)

theorem keysDistinct_texts (o : Option String) : ∀ j ∈ o.map text, j.KeysDistinct := by
  cases o with
  | none => exact nofun
  | some s =>
    rintro _ ⟨⟩
    exact .text

theorem keysDistinct_listField (name : String) {items : List Json}
    (h : ∀ j ∈ items, j.KeysDistinct) :
    ∀ field ∈ listField name items, field.2.KeysDistinct := by
  cases items with
  | nil => exact nofun
  | cons j rest => exact List.forall_mem_singleton.mpr (.array h)

end Json

namespace ErrorConditionDefinition

theorem read_toJson {e : ErrorConditionDefinition} (h : e.KeysDistinct) :
    read .value (Draft.ofJson e.toJson) = .ok e := by
  have hcondition : readField .value {} "condition" (Draft.ofJson e.condition) =
      .ok ⟨some e.condition, none⟩ := by
    simp only [readField, Draft.once_of_ok rfl (Draft.readAny_ofJson h.condition)]
    rfl
  have herror : readField .value ⟨some e.condition, none⟩ "error" (Draft.ofJson e.error) =
      .ok ⟨some e.condition, some e.error⟩ := by
    simp only [readField, Draft.once_of_ok rfl (Draft.readAny_ofJson h.error)]
    rfl
  have hfields : Draft.readFields (readField .value) {}
      (Draft.ofFields [("condition", e.condition), ("error", e.error)]) =
      .ok ⟨some e.condition, some e.error⟩ := by
    simp only [Draft.ofFields, Draft.readFields, bind_eq_ok_iff]
    exact ⟨_, rfl, _, hcondition, _, rfl, _, herror, rfl⟩
  simp only [toJson, Draft.ofJson, read, bind_eq_ok_iff]
  exact ⟨.value, rfl, _, hfields, (), rfl, rfl⟩

theorem keysDistinct_toJson {e : ErrorConditionDefinition} (h : e.KeysDistinct) :
    e.toJson.KeysDistinct := by
  have hkeys : (Entries.keys [("condition", e.condition), ("error", e.error)]).Nodup := by
    simp only [Entries.keys_cons, Entries.keys_nil]
    decide
  refine .object hkeys ?_
  simp only [List.mem_cons, List.not_mem_nil, or_false, forall_eq_or_imp, forall_eq]
  exact ⟨h.condition, h.error⟩

theorem keysDistinct_map_toJson {conditions : List ErrorConditionDefinition}
    (h : ∀ e ∈ conditions, e.KeysDistinct) : ∀ j ∈ conditions.map toJson, j.KeysDistinct :=
  List.forall_mem_map.mpr fun e he => keysDistinct_toJson (h e he)

end ErrorConditionDefinition

namespace ActionDefinition

/-! ### The written form -/

theorem toJsonItems_eq_map (definitions : List ActionDefinition) :
    toJsonItems definitions = definitions.map toJson := by
  induction definitions with
  | nil => rfl
  | cons d rest ih => rw [toJsonItems, ih, List.map_cons]

/-- The declared fields that are written: all but those that say what their absence says. -/
def declaredFields (d : ActionDefinition) : Entries Json :=
  [("type", .text d.type), ("name", .text d.name), ("alias", .text d.key)] ++
  Json.optionalField "description" (d.description.map .text) ++
  [("asynchronous", .bool d.asynchronous)] ++
  Json.optionalField "runCondition" d.runCondition ++
  Json.listField "beforeRunErrorConditions" (d.before.map ErrorConditionDefinition.toJson) ++
  Json.listField "afterRunErrorConditions" (d.after.map ErrorConditionDefinition.toJson) ++
  Json.listField "errorActions" (d.errorActions.map toJson)

theorem toJson_eq (d : ActionDefinition) : d.toJson = .object (d.declaredFields ++ d.settings) := by
  obtain ⟨type, name, key, description, asynchronous, runCondition, before, after, errorActions,
    settings⟩ := d
  rw [toJson, toJsonItems_eq_map]
  rfl

/-! ### Reading field by field -/

/-- With these fields, what was read of an action goes from the one to the other. -/
def Reads (p : Partial) (fields : List (String × Json)) (q : Partial) : Prop :=
  readFields .value p (Draft.ofFields fields) = .ok q

theorem reads_nil (p : Partial) : Reads p [] p := rfl

theorem reads_field {p q : Partial} {name : String} {j : Json} (hname : name ≠ "errorActions")
    (h : readField .value p name (Draft.ofJson j) = .ok q) : Reads p [(name, j)] q := by
  simp only [Reads, Draft.ofFields, readFields, bind_eq_ok_iff]
  refine ⟨name, rfl, ?_⟩
  rw [if_neg hname, bind_eq_ok_iff]
  exact ⟨q, h, rfl⟩

theorem reads_cons_iff {p q : Partial} {name : String} {j : Json} {rest : List (String × Json)} :
    Reads p ((name, j) :: rest) q ↔ ∃ next, Reads p [(name, j)] next ∧ Reads next rest q := by
  have hname : (Draft.text (.ok name)).readText = .ok name := rfl
  simp only [Reads, Draft.ofFields, readFields, bind_eq_ok_iff, hname, Except.ok.injEq,
    exists_eq_left']
  by_cases he : name = "errorActions"
  · simp only [if_pos he, bind_eq_ok_iff, Except.ok.injEq]
    constructor
    · rintro ⟨slot, hslot, hr⟩
      exact ⟨_, ⟨slot, hslot, rfl⟩, hr⟩
    · rintro ⟨_, ⟨slot, hslot, rfl⟩, hr⟩
      exact ⟨slot, hslot, hr⟩
  · simp only [if_neg he, bind_eq_ok_iff, Except.ok.injEq, exists_eq_right]

theorem Reads.append {p q r : Partial} {xs ys : List (String × Json)} (hx : Reads p xs q)
    (hy : Reads q ys r) : Reads p (xs ++ ys) r := by
  induction xs generalizing p with
  | nil =>
    cases hx
    exact hy
  | cons field rest ih =>
    obtain ⟨next, hfield, hrest⟩ := reads_cons_iff.mp hx
    exact reads_cons_iff.mpr ⟨next, hfield, ih hrest⟩

/-- What is read of a list that is left out when it is empty. -/
def written {α : Type} : List α → Option (List α)
  | [] => none
  | x :: xs => some (x :: xs)

theorem getD_written {α : Type} (xs : List α) : (written xs).getD [] = xs := by
  cases xs <;> rfl

theorem getD_map_some {α : Type} (o : Option α) : (o.map some).getD none = o := by
  cases o <;> rfl

theorem reads_listField {α : Type} {p : Partial} {q : Option (List α) → Partial} {name : String}
    {write : α → Json} {xs : List α} (hnone : q none = p)
    (hsome : Reads p [(name, .array (xs.map write))] (q (some xs))) :
    Reads p (Json.listField name (xs.map write)) (q (written xs)) := by
  cases xs with
  | nil =>
    rw [written, hnone]
    exact reads_nil p
  | cons x rest => exact hsome

theorem reads_head (type name key : String) :
    Reads {} [("type", .text type), ("name", .text name), ("alias", .text key)]
      { type := some type, name := some name, key := some key } := by
  have htype : Reads {} [("type", .text type)] { type := some type } := reads_field (by decide) rfl
  have hname : Reads { type := some type } [("name", .text name)]
      { type := some type, name := some name } := reads_field (by decide) rfl
  exact (htype.append hname).append (reads_field (by decide) rfl)

theorem reads_description {p : Partial} (hp : p.description = none) (description : Option String) :
    Reads p (Json.optionalField "description" (description.map .text))
      { p with description := description.map some } := by
  cases description with
  | none =>
    rw [Option.map_none, Option.map_none, ← hp]
    exact reads_nil p
  | some s =>
    have hread : (Draft.ofJson (.text s)).readOptional Draft.readText = .ok (some s) := rfl
    refine reads_field (by decide) ?_
    simp only [readField, Draft.once_of_ok hp hread]
    rfl

theorem reads_asynchronous {p : Partial} (hp : p.asynchronous = none) (asynchronous : Bool) :
    Reads p [("asynchronous", .bool asynchronous)]
      { p with asynchronous := some asynchronous } := by
  refine reads_field (by decide) ?_
  simp only [readField, Draft.ofJson, Draft.readBool, Draft.once_of_ok hp rfl]
  rfl

theorem reads_runCondition {p : Partial} (hp : p.runCondition = none) {condition : Option Json}
    (hkeys : ∀ j ∈ condition, j.KeysDistinct) (hnull : condition ≠ some .null) :
    Reads p (Json.optionalField "runCondition" condition)
      { p with runCondition := condition.map some } := by
  cases condition with
  | none =>
    rw [Option.map_none, ← hp]
    exact reads_nil p
  | some j =>
    have hj : j ≠ .null := fun he => hnull (congrArg some he)
    have hread : (Draft.ofJson j).readOptional (Draft.readAny .value) = .ok (some j) := by
      rw [Draft.readOptional_ofJson hj, Draft.readAny_ofJson (hkeys j rfl)]
      rfl
    refine reads_field (by decide) ?_
    simp only [readField, Draft.once_of_ok hp hread]
    rfl

theorem readConditions_toJson {conditions : List ErrorConditionDefinition}
    (h : ∀ e ∈ conditions, e.KeysDistinct) :
    readConditions .value
      (Draft.ofJson (.array (conditions.map ErrorConditionDefinition.toJson))) = .ok conditions :=
  Draft.readList_ofJson fun e he => ErrorConditionDefinition.read_toJson (h e he)

theorem reads_before {p : Partial} (hp : p.before = none)
    {conditions : List ErrorConditionDefinition} (h : ∀ e ∈ conditions, e.KeysDistinct) :
    Reads p (Json.listField "beforeRunErrorConditions"
        (conditions.map ErrorConditionDefinition.toJson))
      { p with before := written conditions } := by
  have hnone : { p with before := none } = p := by rw [← hp]
  refine reads_listField (q := fun slot => { p with before := slot }) hnone ?_
  refine reads_field (by decide) ?_
  simp only [readField, Draft.once_of_ok hp (readConditions_toJson h)]
  rfl

theorem reads_after {p : Partial} (hp : p.after = none)
    {conditions : List ErrorConditionDefinition} (h : ∀ e ∈ conditions, e.KeysDistinct) :
    Reads p (Json.listField "afterRunErrorConditions"
        (conditions.map ErrorConditionDefinition.toJson))
      { p with after := written conditions } := by
  have hnone : { p with after := none } = p := by rw [← hp]
  refine reads_listField (q := fun slot => { p with after := slot }) hnone ?_
  refine reads_field (by decide) ?_
  simp only [readField, Draft.once_of_ok hp (readConditions_toJson h)]
  rfl

theorem readItems_eq (origin : Origin) (items : List Draft) :
    readItems origin items = Draft.readItems (read origin) items := by
  induction items with
  | nil => rw [readItems, Draft.readItems]
  | cons d rest ih => rw [readItems, Draft.readItems, ih]

theorem readList_eq (origin : Origin) (d : Draft) : readList origin d = d.readList origin read := by
  cases d <;> simp only [readList, Draft.readList, readItems_eq]

theorem reads_errorActions {p : Partial} (hp : p.errorActions = none)
    {actions : List ActionDefinition}
    (h : ∀ a ∈ actions, read .value (Draft.ofJson a.toJson) = .ok a) :
    Reads p (Json.listField "errorActions" (actions.map toJson))
      { p with errorActions := written actions } := by
  have hlist : readList .value (Draft.ofJson (.array (actions.map toJson))) = .ok actions := by
    rw [readList_eq]
    exact Draft.readList_ofJson h
  have hnone : { p with errorActions := none } = p := by rw [← hp]
  refine reads_listField (q := fun slot => { p with errorActions := slot }) hnone ?_
  simp only [Reads, Draft.ofFields, readFields, bind_eq_ok_iff]
  refine ⟨"errorActions", rfl, ?_⟩
  rw [if_pos rfl, bind_eq_ok_iff]
  exact ⟨some actions, Draft.once_of_ok hp hlist, rfl⟩

theorem readField_of_undeclared {origin : Origin} {p : Partial} {name : String}
    (h : name ∉ declared) (d : Draft) :
    readField origin p name d = d.readSetting origin >>= fun value =>
      .ok { p with settings := Entries.put p.settings name value } := by
  simp only [declared, List.mem_cons, List.not_mem_nil, or_false, not_or] at h
  unfold readField
  split
  case h_9 => rfl
  all_goals simp_all only [not_true_eq_false, false_and, and_false]

/-- Settings go behind those that are read already. -/
theorem reads_settings {p : Partial} {settings : Entries Json}
    (hkeys : (Entries.keys (p.settings ++ settings)).Nodup)
    (hsettings : ∀ field ∈ settings, field.1 ∉ declared ∧ field.2.KeysDistinct) :
    Reads p settings { p with settings := p.settings ++ settings } := by
  induction settings generalizing p with
  | nil =>
    rw [List.append_nil]
    exact reads_nil p
  | cons field rest ih =>
    obtain ⟨name, j⟩ := field
    obtain ⟨⟨hname, hj⟩, hrest⟩ := List.forall_mem_cons.mp hsettings
    have hnew : name ∉ Entries.keys p.settings := Entries.not_mem_keys_of_nodup_append hkeys
    have happend : p.settings ++ (name, j) :: rest = (p.settings ++ [(name, j)]) ++ rest := by simp
    rw [happend] at hkeys ⊢
    have hfield : Reads p [(name, j)] { p with settings := p.settings ++ [(name, j)] } := by
      have hother : name ≠ "errorActions" := by
        rintro rfl
        exact hname (by simp [declared])
      refine reads_field hother ?_
      rw [readField_of_undeclared hname, Draft.readSetting_ofJson hj, ← Entries.put_of_not_mem hnew]
      rfl
    exact hfield.append (ih hkeys hrest)

/-- What is read of the written form of an action. -/
def partialOf (d : ActionDefinition) : Partial where
  type := some d.type
  name := some d.name
  key := some d.key
  description := d.description.map some
  asynchronous := some d.asynchronous
  runCondition := d.runCondition.map some
  before := written d.before
  after := written d.after
  errorActions := written d.errorActions
  settings := d.settings

theorem ofPartial_partialOf (d : ActionDefinition) : ofPartial (partialOf d) = .ok d := by
  cases d
  simp only [ofPartial, partialOf, Draft.require, getD_map_some, getD_written, Option.getD_some]
  rfl

theorem reads_declaredFields {d : ActionDefinition}
    (hcondition : ∀ j ∈ d.runCondition, j.KeysDistinct) (hnull : d.runCondition ≠ some .null)
    (hbefore : ∀ e ∈ d.before, e.KeysDistinct) (hafter : ∀ e ∈ d.after, e.KeysDistinct)
    (hrecovery : ∀ a ∈ d.errorActions, read .value (Draft.ofJson a.toJson) = .ok a) :
    Reads {} d.declaredFields { partialOf d with settings := [] } :=
  (((((reads_head d.type d.name d.key).append (reads_description rfl d.description)).append
    (reads_asynchronous rfl d.asynchronous)).append
    (reads_runCondition rfl hcondition hnull)).append
    (reads_before rfl hbefore)).append (reads_after rfl hafter) |>.append
    (reads_errorActions rfl hrecovery)

theorem read_toJson {d : ActionDefinition} (h : d.Orderly) (hnull : d.NullFree) :
    read .value (Draft.ofJson d.toJson) = .ok d := by
  induction h with
  | @node d runCondition before after recovery settings ih =>
    cases hnull with
    | node own inside =>
      have hdeclared := reads_declaredFields runCondition own before after
        fun a ha => ih a ha (inside a ha)
      have hsettings : Reads { partialOf d with settings := [] } d.settings (partialOf d) :=
        reads_settings settings.keys fun field hf =>
          ⟨settings.undeclared field.1 (List.mem_map_of_mem hf), settings.inside field hf⟩
      rw [toJson_eq]
      simp only [Draft.ofJson, read, bind_eq_ok_iff]
      exact ⟨.value, rfl, _, hdeclared.append hsettings, (), rfl, ofPartial_partialOf d⟩

/-! ### The written form as a value -/

theorem keys_declaredFields_sublist (d : ActionDefinition) :
    (Entries.keys d.declaredFields).Sublist declared := by
  have hdescription := Json.keys_optionalField_sublist "description" (d.description.map .text)
  have hcondition := Json.keys_optionalField_sublist "runCondition" d.runCondition
  have hbefore := Json.keys_listField_sublist "beforeRunErrorConditions"
    (d.before.map ErrorConditionDefinition.toJson)
  have hafter := Json.keys_listField_sublist "afterRunErrorConditions"
    (d.after.map ErrorConditionDefinition.toJson)
  have hrecovery := Json.keys_listField_sublist "errorActions" (d.errorActions.map toJson)
  simp only [declaredFields, Entries.keys_append, Entries.keys_cons, Entries.keys_nil]
  exact (((((List.Sublist.refl ["type", "name", "alias"]).append hdescription).append
    (List.Sublist.refl ["asynchronous"])).append hcondition).append hbefore).append hafter |>.append
    hrecovery

theorem fieldsDistinct_declaredFields {d : ActionDefinition}
    (hcondition : ∀ j ∈ d.runCondition, j.KeysDistinct)
    (hbefore : ∀ e ∈ d.before, e.KeysDistinct) (hafter : ∀ e ∈ d.after, e.KeysDistinct)
    (hrecovery : ∀ a ∈ d.errorActions, a.toJson.KeysDistinct) :
    Json.FieldsDistinct d.declaredFields where
  keys := (keys_declaredFields_sublist d).nodup (by decide)
  inside := by
    have hbefore' := ErrorConditionDefinition.keysDistinct_map_toJson hbefore
    have hafter' := ErrorConditionDefinition.keysDistinct_map_toJson hafter
    have hrecovery' : ∀ j ∈ d.errorActions.map toJson, j.KeysDistinct :=
      List.forall_mem_map.mpr hrecovery
    have hdescription :=
      Json.keysDistinct_optionalField "description" (Json.keysDistinct_texts d.description)
    simp only [declaredFields, List.forall_mem_append, List.forall_mem_cons]
    exact ⟨⟨⟨⟨⟨⟨⟨.text, .text, .text, nofun⟩, hdescription⟩, .bool, nofun⟩,
      Json.keysDistinct_optionalField _ hcondition⟩, Json.keysDistinct_listField _ hbefore'⟩,
      Json.keysDistinct_listField _ hafter'⟩, Json.keysDistinct_listField _ hrecovery'⟩

theorem keysDistinct_toJson {d : ActionDefinition} (h : d.Orderly) : d.toJson.KeysDistinct := by
  induction h with
  | @node d runCondition before after recovery settings ih =>
    have hdeclared := fieldsDistinct_declaredFields runCondition before after ih
    have hfields : Json.FieldsDistinct (d.declaredFields ++ d.settings) :=
      Json.fieldsDistinct_append hdeclared settings.toFieldsDistinct fun name hname hmem =>
        settings.undeclared name hname ((keys_declaredFields_sublist d).subset hmem)
    rw [toJson_eq]
    exact .object hfields.keys hfields.inside

end ActionDefinition

namespace Definition

theorem keysDistinct_toJson {definition : Definition}
    (h : ∀ a ∈ definition.actions, a.Orderly) : definition.toJson.KeysDistinct := by
  have hdescription :=
    Json.keysDistinct_optionalField "description" (Json.keysDistinct_texts definition.description)
  have hsublist := Json.keys_optionalField_sublist "description"
    (definition.description.map .text)
  have hactions : ∀ j ∈ definition.actions.map ActionDefinition.toJson, j.KeysDistinct :=
    List.forall_mem_map.mpr fun a ha => ActionDefinition.keysDistinct_toJson (h a ha)
  rw [toJson, ActionDefinition.toJsonItems_eq_map]
  refine .object ?_ ?_
  · have hkeys := ((List.Sublist.refl ["name"]).append hsublist).append
      (List.Sublist.refl ["actions"])
    simp only [Entries.keys_append]
    exact hkeys.nodup (by decide)
  · simp only [List.forall_mem_append, List.forall_mem_cons]
    exact ⟨⟨⟨.text, nofun⟩, hdescription⟩, .array hactions, nofun⟩

theorem readField_actions {p : Partial} (hp : p.actions = none) {actions : List ActionDefinition}
    (h : ∀ a ∈ actions, ActionDefinition.read .value (Draft.ofJson a.toJson) = .ok a) :
    readField .value p "actions" (Draft.ofJson (.array (actions.map ActionDefinition.toJson))) =
      .ok { p with actions := some actions } := by
  have hlist := Draft.readList_ofJson h
  rw [← ActionDefinition.readList_eq] at hlist
  simp only [readField, Draft.once_of_ok hp hlist]
  rfl

theorem read_toJson {definition : Definition} (h : ∀ a ∈ definition.actions, a.Orderly)
    (hnull : ∀ a ∈ definition.actions, a.NullFree) :
    ofJson definition.toJson = .ok definition := by
  obtain ⟨name, description, actions⟩ := definition
  have hread : ∀ a ∈ actions, ActionDefinition.read .value (Draft.ofJson a.toJson) = .ok a :=
    fun a ha => ActionDefinition.read_toJson (h a ha) (hnull a ha)
  have hfields : Draft.readFields (readField .value) {} (Draft.ofFields
      ([("name", .text name)] ++ Json.optionalField "description" (description.map .text) ++
        [("actions", .array (actions.map ActionDefinition.toJson))])) =
      .ok ⟨some name, description.map some, some actions⟩ := by
    cases description with
    | none =>
      simp only [Json.optionalField, List.cons_append, List.nil_append, Option.map_none,
        Draft.ofFields, Draft.readFields, bind_eq_ok_iff]
      exact ⟨_, rfl, _, rfl, _, rfl, _, readField_actions rfl hread, rfl⟩
    | some s =>
      simp only [Json.optionalField, List.cons_append, List.nil_append, Option.map_some,
        Draft.ofFields, Draft.readFields, bind_eq_ok_iff]
      exact ⟨_, rfl, _, rfl, _, rfl, _, rfl, _, rfl, _, readField_actions rfl hread, rfl⟩
  rw [toJson, ActionDefinition.toJsonItems_eq_map]
  simp only [ofJson, Draft.ofJson, read, bind_eq_ok_iff]
  refine ⟨.value, rfl, _, hfields, (), rfl, ?_⟩
  simp only [ofPartial, Draft.require, ActionDefinition.getD_map_some, Option.getD_some]
  rfl

/-- Whatever a definition was read from, it is written as a value that reads as itself, unless a run
condition in it is null. -/
theorem ofJson_toJson_iff {origin : Origin} {d : Draft} {definition : Definition}
    (h : read origin d = .ok definition) :
    ofJson definition.toJson = .ok definition ↔ ∀ a ∈ definition.actions, a.NullFree :=
  ⟨fun hback => nullFree_of_json (.inl ⟨_, hback⟩),
    read_toJson (ActionDefinition.orderly_rule.definition trivial h)⟩

/-- A definition from a JSON value or a JSON text is written as a value with distinct keys that
reads as the same definition, in every field and at every depth. -/
theorem ofJson_toJson_of_json {definition : Definition}
    (h : (∃ j, ofJson j = .ok definition) ∨
      ∃ path text, Format.json.parse read path text = .ok definition) :
    definition.toJson.KeysDistinct ∧ ofJson definition.toJson = .ok definition := by
  obtain ⟨origin, d, hquoted, hread⟩ := exists_read_of_json h
  have horderly := ActionDefinition.orderly_rule.definition trivial hread
  have hnull := ActionDefinition.nullFree_rule.definition hquoted hread
  exact ⟨keysDistinct_toJson horderly, read_toJson horderly hnull⟩

/-- Three fields in their places, with a null that counts as none, a condition in its places too and
settings on an action and on its error action. -/
def placed : Json :=
  .array [.text "nightly", .null, .array [.object
    [("url", .object [("path", .text "/a"), ("port", .number (.integer 80))]),
     ("type", .text "call"), ("runCondition", .null), ("alias", .text "fetch"),
     ("description", .text "once"),
     ("beforeRunErrorConditions", .array [.array [.bool true, .text "late"]]),
     ("errorActions", .array [.object
       [("alias", .text "note"), ("level", .null), ("type", .text "log"), ("name", .text "Note"),
        ("runCondition", .bool false)]]),
     ("retries", .array [])]]]

def placedDefinition : Definition where
  name := "nightly"
  description := none
  actions :=
    [{ type := "call", name := "", key := "fetch", description := some "once"
       asynchronous := false, runCondition := none
       before := [⟨.bool true, .text "late"⟩], after := []
       errorActions :=
        [{ type := "log", name := "Note", key := "note", description := none
           asynchronous := false, runCondition := some (.bool false)
           before := [], after := [], errorActions := [], settings := [("level", .null)] }]
       settings :=
        [("url", .object [("path", .text "/a"), ("port", .number (.integer 80))]),
         ("retries", .array [])] }]

theorem ofJson_toJson_of_json_placed :
    ofJson placed = .ok placedDefinition ∧ placedDefinition.toJson.KeysDistinct ∧
      ofJson placedDefinition.toJson = .ok placedDefinition := by
  have h : ofJson placed = .ok placedDefinition := rfl
  exact ⟨h, ofJson_toJson_of_json (.inl ⟨placed, h⟩)⟩

end Definition

end ActionFlow
