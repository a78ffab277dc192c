import ActionFlow.Proofs.Building
import ActionFlow.Proofs.Forms
import ActionFlow.Proofs.RunConditions

/-!
# Built automations and their definitions

With the built-in types, an automation is built only if the siblings of every scope have different
keys, none of them blank, and known types; then it mirrors its definition action by action.
-/
namespace ActionFlow

/-! ### Mirrors -/

/-- The settings that every action has, as the definition has them. -/
structure Head.Mirrors (d : ActionDefinition) (head : Head) : Prop where
  name : head.name = d.displayName
  key : head.key = d.key
  description : head.description = d.description
  asynchronous : head.asynchronous = d.asynchronous
  runCondition : head.runCondition.isSome = d.runCondition.isSome
  before : head.before.length = d.before.length
  after : head.after.length = d.after.length

/-- A group or an iteration has the actions that are written in its setting, in their order. -/
inductive Kind.Mirrors (P : ActionDefinition → Action → Prop) :
    Kind Action → ActionDefinition → Prop
  | group {d : ActionDefinition} {children : List ActionDefinition} {actions : List Action}
      {parallel : Bool}
      (written : d.childActions "actions" = .ok children) (inside : List.Forall₂ P children actions)
      (flag : d.flag "parallel" = .ok parallel) : Mirrors P (.group parallel actions) d
  | iterate {d : ActionDefinition} {children : List ActionDefinition} {actions : List Action}
      {l : Loop} (written : d.childActions "actions" = .ok children)
      (inside : List.Forall₂ P children actions) : Mirrors P (.iterate l actions) d
  | raiseError {d : ActionDefinition} {p : FaultProvider} : Mirrors P (.simple (.raiseError p)) d
  | setVariable {d : ActionDefinition} {property : Provider} {path : Option Provider}
      {value : Provider} : Mirrors P (.simple (.setVariable property path value)) d

/-- The action is like its definition, at every depth. -/
inductive Action.Mirrors : ActionDefinition → Action → Prop
  | node {d : ActionDefinition} {a : Action} (head : a.head.Mirrors d)
      (type : a.kind.typeName = d.type) (kind : a.kind.Mirrors Mirrors d)
      (recovery : List.Forall₂ Mirrors d.errorActions a.errorActions) : Mirrors d a

/-! ### Scopes -/

namespace Definition

/-- The lists of siblings in a definition, at every depth. -/
inductive Scope (definition : Definition) : List ActionDefinition → Prop
  | top : Scope definition definition.actions
  | inside {scope children : List ActionDefinition} {d : ActionDefinition}
      (within : Scope definition scope) (member : d ∈ scope)
      (composite : d.type = "group" ∨ d.type = "iterate")
      (written : d.childActions "actions" = .ok children) : Scope definition children
  | recovery {scope : List ActionDefinition} {d : ActionDefinition}
      (within : Scope definition scope) (member : d ∈ scope) : Scope definition d.errorActions

end Definition

namespace Registry

/-- Siblings that cannot be built together: two have one key, or one of them has a blank key or a
type that is not registered. -/
def Flawed (r : Registry) (scope : List ActionDefinition) : Prop :=
  ¬ (scope.map ActionDefinition.key).Nodup ∨
    ∃ d ∈ scope, Text.isBlankText d.key = true ∨ r.contains d.type = false

/-! ### Types -/

theorem contains_of_factory {r : Registry} {type : String} {factory : Factory}
    (h : Entries.find? r.factories type = some factory) : r.contains type = true := by
  simp [contains, Entries.has, h]

theorem BuiltKind.contains {r : Registry} {P : ActionDefinition → Action → Prop}
    {d : ActionDefinition} {kind : Kind Action} (h : BuiltKind r P d kind) :
    r.contains d.type = true := by
  cases h with
  | group factory | iterate factory | raiseError factory | setVariable factory | custom factory =>
    exact contains_of_factory factory

theorem BuiltKind.typeName {P : ActionDefinition → Action → Prop} {d : ActionDefinition}
    {kind : Kind Action} (h : BuiltKind builtIn P d kind) : kind.typeName = d.type := by
  cases h with
  | group factory | iterate factory | raiseError factory | setVariable factory =>
    have hmem := Entries.mem_of_find? factory
    simp only [builtIn, List.mem_cons, Prod.mk.injEq, reduceCtorEq, and_true, and_false, or_false,
      false_or, List.not_mem_nil] at hmem
    exact hmem.symm
  | custom factory => exact absurd factory (not_custom _ _)

theorem isSome_optionally {α : Type} {j : Option Json} {read : Json → Except FormError α}
    {result : Option α} (h : optionally j read = .ok result) : result.isSome = j.isSome := by
  cases j with
  | none =>
    cases h
    rfl
  | some j =>
    obtain ⟨a, -, rfl⟩ := map_eq_ok_iff.mp h
    rfl

theorem length_errorConditions {definitions : List ErrorConditionDefinition}
    {conditions : List ErrorCondition} (h : errorConditions definitions = .ok conditions) :
    conditions.length = definitions.length := by
  induction definitions generalizing conditions with
  | nil =>
    cases h
    rfl
  | cons d rest ih =>
    simp only [errorConditions, bind_eq_ok_iff, Except.ok.injEq] at h
    obtain ⟨condition, -, others, hothers, rfl⟩ := h
    simp [ih hothers]

theorem BuiltHead.mirrors {d : ActionDefinition} {head : Head} (h : BuiltHead d head) :
    head.Mirrors d where
  name := h.name
  key := h.key
  description := h.description
  asynchronous := h.asynchronous
  runCondition := isSome_optionally h.runCondition
  before := length_errorConditions h.before
  after := length_errorConditions h.after

theorem BuiltKind.mirrors {P : ActionDefinition → Action → Prop} {d : ActionDefinition}
    {kind : Kind Action} (h : BuiltKind builtIn P d kind) : kind.Mirrors P d := by
  cases h with
  | group factory written inside flag => exact .group written inside.each flag
  | iterate factory written inside loop => exact .iterate written inside.each
  | raiseError factory made => exact .raiseError
  | setVariable factory made => exact .setVariable
  | custom factory made => exact absurd factory (not_custom _ _)

theorem Built.mirrors {d : ActionDefinition} {a : Action} (h : Built builtIn Action.Mirrors d a) :
    a.Mirrors d :=
  .node h.head.mirrors h.kind.typeName h.kind.mirrors h.recovery.each

/-! ### Every scope is built -/

theorem BuiltKind.exists_inside {P : ActionDefinition → Action → Prop} {d : ActionDefinition}
    {kind : Kind Action} (h : BuiltKind builtIn P d kind)
    (composite : d.type = "group" ∨ d.type = "iterate") {children : List ActionDefinition}
    (written : d.childActions "actions" = .ok children) :
    ∃ actions, BuiltScope P children actions := by
  have htype := h.typeName
  cases h with
  | group factory hwritten inside flag =>
    rw [hwritten] at written
    cases written
    exact ⟨_, inside⟩
  | iterate factory hwritten inside loop =>
    rw [hwritten] at written
    cases written
    exact ⟨_, inside⟩
  | raiseError factory made | setVariable factory made =>
    simp [← htype, Kind.typeName] at composite
  | custom factory made => exact absurd factory (not_custom _ _)

/-- No scope of a definition that is built is left out. -/
theorem exists_builtScope {d : Definition} {a : Automation}
    (h : builtIn.buildAutomation d = .ok a) {scope : List ActionDefinition}
    (hscope : d.Scope scope) : ∃ actions, BuiltScope builtIn.Builds scope actions := by
  induction hscope with
  | top => exact ⟨a.actions, (buildAutomation_eq_ok_iff.mp h).2⟩
  | inside within member composite written ih =>
    obtain ⟨actions, hactions⟩ := ih
    obtain ⟨b, hb⟩ := hactions.exists_of_definition member
    exact (builds_iff.mp hb).kind.exists_inside composite written
  | recovery within member ih =>
    obtain ⟨actions, hactions⟩ := ih
    obtain ⟨b, hb⟩ := hactions.exists_of_definition member
    exact ⟨b.errorActions, (builds_iff.mp hb).recovery⟩

theorem BuiltScope.keys {definitions : List ActionDefinition} {actions : List Action}
    (h : BuiltScope builtIn.Builds definitions actions) :
    actions.map Action.key = definitions.map ActionDefinition.key := by
  obtain ⟨each, -⟩ := h
  induction each with
  | nil => rfl
  | cons hb _ ih =>
    have hkey := (builds_iff.mp hb).head.key
    rw [List.map_cons, List.map_cons, ih]
    exact congrArg (· :: _) hkey

theorem BuiltScope.not_flawed {definitions : List ActionDefinition} {actions : List Action}
    (h : BuiltScope builtIn.Builds definitions actions) : ¬ builtIn.Flawed definitions := by
  rintro (hkeys | ⟨d, hd, hblank | htype⟩)
  · exact hkeys (h.keys ▸ h.distinct)
  · obtain ⟨a, ha⟩ := h.exists_of_definition hd
    have hnot := (builds_iff.mp ha).notBlank
    simp [hblank] at hnot
  · obtain ⟨a, ha⟩ := h.exists_of_definition hd
    have hcontains := (builds_iff.mp ha).kind.contains
    simp [htype] at hcontains

theorem nullFree_of_scope {d : Definition} (h : ∀ a ∈ d.actions, a.NullFree)
    {scope : List ActionDefinition} (hscope : d.Scope scope) : ∀ a ∈ scope, a.NullFree := by
  induction hscope with
  | top => exact h
  | inside _ _ _ written _ => exact ActionDefinition.nullFree_childActions written
  | recovery _ member ih =>
    cases ih _ member with
    | node own recovery => exact recovery

/-- No definition with a flawed scope at any depth is built.  What is built mirrors its definition
at every depth, and in a definition from a JSON value or a JSON text a run condition is there
exactly if it is not null. -/
theorem buildAutomation_mirrors (d : Definition) :
    (∀ scope, d.Scope scope → builtIn.Flawed scope → ∀ a, builtIn.buildAutomation d ≠ .ok a) ∧
    (∀ a, builtIn.buildAutomation d = .ok a →
      a.name = d.name ∧ List.Forall₂ Action.Mirrors d.actions a.actions) ∧
    ((∃ j, Definition.ofJson j = .ok d) ∨
        (∃ path text, Format.json.parse Definition.read path text = .ok d) →
      ∀ scope, d.Scope scope → ∀ b ∈ scope, b.runCondition ≠ some .null) := by
  refine ⟨fun scope hscope flawed a ha => ?_, fun a ha => ?_, fun hjson scope hscope b hb => ?_⟩
  · obtain ⟨actions, hactions⟩ := exists_builtScope ha hscope
    exact hactions.not_flawed flawed
  · obtain ⟨hname, hactions⟩ := buildAutomation_eq_ok_iff.mp ha
    have hmirrors : BuiltScope Action.Mirrors d.actions a.actions :=
      hactions.imp fun _ _ _ hb => build_induction (fun _ _ built => built.mirrors) hb
    exact ⟨hname, hmirrors.each⟩
  · have hnull := nullFree_of_scope (Definition.nullFree_of_json hjson) hscope b hb
    cases hnull with
    | node own recovery => exact own

/-- An action of one key inside another one and among its error actions. -/
def nestedDefinition : Definition where
  name := "main"
  description := none
  actions :=
    [{ type := "group", name := "All", key := "all", description := none, asynchronous := true
       runCondition := some (.bool true), before := [], after := []
       errorActions := [.minimal "setVariable" "all" [("propertyName", .text "x")]]
       settings :=
        [("parallel", .bool true),
         ("actions", .array
          [.object [("type", .text "group"), ("alias", .text "all")],
           .object [("type", .text "raiseError"), ("alias", .text "fail"),
            ("error", .object [("code", .text "wrong"), ("title", .text ""),
              ("message", .text ""), ("httpStatusCode", .number (.integer 400))])]])] }]

def nestedAutomation : Automation where
  name := "main"
  actions :=
    [{ head := { name := "All", key := "all", asynchronous := true
                 runCondition := some (.typed (.constant (.bool true))) }
       kind := .group true
        [{ head := { name := "all", key := "all" }, kind := .group false [], errorActions := [] },
         { head := { name := "fail", key := "fail" }
           kind := .simple (.raiseError
            { code := .constant (.text "wrong"), title := .constant (.text "")
              message := .constant (.text ""), status := .constant (.number (.integer 400))
              details := none, data := none })
           errorActions := [] }]
       errorActions :=
        [{ head := { name := "all", key := "all" }
           kind := .simple (.setVariable (.constant (.text "x")) none (.constant .null))
           errorActions := [] }] }]

/-! ### Literals -/

theorem reading_of_literal {config : Json} (h : Form.call? config = none) :
    reading (Provider.ofJson config) = .ok (.constant (.ofJson config)) := by
  rw [Provider.ofJson_of_literal h]
  rfl

theorem optionally_of_literal {config : Json} (h : Form.call? config = none) :
    optionally (some config) Condition.ofJson =
      .ok (some (.typed (.constant (.ofJson config)))) := by
  rw [optionally, Condition.ofJson_of_literal h, Provider.ofJson_of_literal h]
  rfl

theorem needed_of_literal {fields : Entries Json} {key : String} {config : Json}
    (hfind : Entries.find? fields key = some config) (h : Form.call? config = none) :
    FaultProvider.needed fields key = .ok (.constant (.ofJson config)) := by
  rw [FaultProvider.needed, hfind]
  exact Provider.ofJson_of_literal h

theorem builds_nested : builtIn.buildAutomation nestedDefinition = .ok nestedAutomation := by
  have hfault : FaultProvider.ofJson
      (.object [("code", .text "wrong"), ("title", .text ""), ("message", .text ""),
        ("httpStatusCode", .number (.integer 400))]) =
      .ok ⟨.constant (.text "wrong"), .constant (.text ""), .constant (.text ""),
        .constant (.number (.integer 400)), none, none⟩ := by
    simp only [FaultProvider.ofJson, bind_eq_ok_iff]
    exact ⟨(), rfl, _, needed_of_literal rfl rfl, _, needed_of_literal rfl rfl, _,
      needed_of_literal rfl rfl, _, needed_of_literal rfl rfl, none, rfl, none, rfl, rfl⟩
  have hchildren : BuiltScope builtIn.Builds
      [.minimal "group" "all" [],
        .minimal "raiseError" "fail"
          [("error", .object [("code", .text "wrong"), ("title", .text ""),
            ("message", .text ""), ("httpStatusCode", .number (.integer 400))])]]
      (nestedAutomation.actions.flatMap fun a => a.kind.actions) := by
    refine ⟨.cons (builds_iff.mpr ?_) (.cons (builds_iff.mpr ?_) .nil), by decide⟩
    · exact ⟨by decide, ⟨rfl, rfl, rfl, rfl, rfl, rfl, rfl⟩, .group rfl rfl ⟨.nil, .nil⟩ rfl,
        ⟨.nil, .nil⟩⟩
    · refine ⟨by decide, ⟨rfl, rfl, rfl, rfl, rfl, rfl, rfl⟩, .raiseError rfl ?_, ⟨.nil, .nil⟩⟩
      simp only [raising, bind_eq_ok_iff]
      exact ⟨_, rfl, _, by rw [hfault]; rfl, rfl⟩
  have hrecovery : BuiltScope builtIn.Builds
      [.minimal "setVariable" "all" [("propertyName", .text "x")]]
      (nestedAutomation.actions.flatMap Action.errorActions) := by
    refine ⟨.cons (builds_iff.mpr ?_) .nil, by decide⟩
    refine ⟨by decide, ⟨rfl, rfl, rfl, rfl, rfl, rfl, rfl⟩, .setVariable rfl ?_, ⟨.nil, .nil⟩⟩
    simp only [assigning, bind_eq_ok_iff]
    exact ⟨_, rfl, (), rfl, none, rfl, _, reading_of_literal rfl, none, rfl, rfl⟩
  rw [buildAutomation_eq_ok_iff]
  refine ⟨rfl, .cons (builds_iff.mpr ?_) .nil, by decide⟩
  exact ⟨by decide, ⟨rfl, rfl, rfl, rfl, optionally_of_literal rfl, rfl, rfl⟩,
    .group rfl rfl hchildren rfl, hrecovery⟩

theorem buildAutomation_mirrors_nested :
    builtIn.buildAutomation nestedDefinition = .ok nestedAutomation ∧
      List.Forall₂ Action.Mirrors nestedDefinition.actions nestedAutomation.actions :=
  ⟨builds_nested, ((buildAutomation_mirrors nestedDefinition).2.1 _ builds_nested).2⟩

/-- What is read of a definition with one group that has nothing but its key and a null for a run
condition. -/
def readsNullCondition (name key : String) : Except DefinitionError Definition → Bool
  | .ok ⟨found, none, [⟨"group", "", k, none, false, some .null, [], [], [], []⟩]⟩ =>
    found = name && k = key
  | _ => false

theorem eq_of_readsNullCondition {name key : String} {result : Except DefinitionError Definition}
    (h : readsNullCondition name key result = true) :
    result = .ok ⟨name, none,
      [{ ActionDefinition.minimal "group" key [] with runCondition := some .null }]⟩ := by
  unfold readsNullCondition at h
  split at h
  · simp only [Bool.and_eq_true, decide_eq_true_eq] at h
    obtain ⟨rfl, rfl⟩ := h
    rfl
  · cases h

/-- A scalar of a YAML text that reads as null, but is not spelled so, is taken for a run
condition. -/
theorem runCondition_of_null :
    let text := "name: a\nactions:\n  - type: group\n    alias: g\n    runCondition: .nan\n"
    let written := { ActionDefinition.minimal "group" "g" [] with runCondition := some .null }
    let built : Action :=
      { head := { name := "g", key := "g", runCondition := some (.typed (.constant .null)) }
        kind := .group false []
        errorActions := [] }
    Format.yaml.parse Definition.read "a.yaml" text = .ok ⟨"a", none, [written]⟩ ∧
      builtIn.buildAutomation ⟨"a", none, [written]⟩ = .ok ⟨"a", [built]⟩ ∧
      written.runCondition = some .null ∧ built.head.runCondition.isSome = true := by
  intro text written built
  refine ⟨eq_of_readsNullCondition (by decide +kernel), ?_, rfl, rfl⟩
  have hbuilt : Built builtIn builtIn.Builds written built :=
    ⟨by decide, ⟨rfl, rfl, rfl, rfl, optionally_of_literal rfl, rfl, rfl⟩,
      .group rfl rfl ⟨.nil, .nil⟩ rfl, ⟨.nil, .nil⟩⟩
  rw [buildAutomation_eq_ok_iff]
  exact ⟨rfl, .cons (builds_iff.mpr hbuilt) .nil, by decide⟩

end Registry

end ActionFlow
