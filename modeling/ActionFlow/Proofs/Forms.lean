import ActionFlow.Document.Size
import ActionFlow.Provider.Form
import Mathlib.Data.List.Forall2

/-!
# What is read of a configuration

`Provider.Written` and `Condition.Written` say of what a configuration is the written form, with its
parts related to theirs by any two relations.  Relations that hold of a configuration as soon as
they hold of what is written in it hold of everything that is read, at every depth, and so of the
fields of a fault.
-/
namespace ActionFlow

/-! ### Sizes -/

namespace Json

theorem size_le_sizeItems {config : Json} {items : List Json} (h : config ∈ items) :
    config.size ≤ sizeItems items := by
  induction items with
  | nil => cases h
  | cons first rest ih =>
    rw [sizeItems]
    rcases List.mem_cons.mp h with rfl | h
    · omega
    · have hrest := ih h
      omega

theorem size_le_sizeFields_of_mem {field : String × Json} {fields : Entries Json}
    (h : field ∈ fields) : field.2.size ≤ sizeFields fields := by
  induction fields with
  | nil => cases h
  | cons first rest ih =>
    obtain ⟨key, j⟩ := first
    rw [sizeFields]
    rcases List.mem_cons.mp h with rfl | h
    · dsimp only
      omega
    · have hrest := ih h
      omega

end Json

/-! ### Calls -/

/-- The configuration is a call of the form with these arguments. -/
def Form.Invokes (config : Json) (form : Form) (args : Json) : Prop :=
  ∃ smaller, Form.call? config = some ⟨form, args, smaller⟩

namespace Form

variable {config args : Json} {form : Form}

theorem Invokes.size_lt (h : Invokes config form args) : args.size < config.size := by
  obtain ⟨smaller, -⟩ := h
  exact smaller

theorem literal_or_invokes (config : Json) :
    call? config = none ∨ ∃ form args, Invokes config form args := by
  cases h : call? config with
  | none => exact .inl rfl
  | some call =>
    obtain ⟨form, args, smaller⟩ := call
    exact .inr ⟨form, args, smaller, h⟩

/-- The configuration that calls the form with these arguments. -/
def on (form : Form) (args : Json) : Json := .object [(form.name, args)]

theorem ofName?_name (form : Form) : ofName? form.name = some form := by
  cases form with
  | text op => cases op <;> decide
  | compare op => cases op <;> decide
  | constant | lookup | present | list | object | file | count | all | any | negation | equal =>
    decide

theorem invokes_on (form : Form) (args : Json) : Invokes (form.on args) form args := by
  refine ⟨size_lt_size_call _ _, ?_⟩
  show (ofName? form.name).map (fun f => (⟨f, args, _⟩ : Call (form.on args))) = _
  rw [ofName?_name, Option.map_some]

end Form

section Calls

variable {config args : Json} {form : Form}

theorem Provider.ofJson_of_literal (h : Form.call? config = none) :
    Provider.ofJson config = .ok (.constant (.ofJson config)) := by
  rw [Provider.ofJson, h]

theorem Condition.ofJson_of_literal (h : Form.call? config = none) :
    Condition.ofJson config = (Provider.ofJson config).map .typed := by
  rw [Condition.ofJson, h]

theorem Provider.ofJson_of_invokes (h : Form.Invokes config form args) :
    Provider.ofJson config = Provider.ofCall form args := by
  obtain ⟨_, hcall⟩ := h
  rw [Provider.ofJson, hcall]

theorem Condition.ofJson_of_invokes (h : Form.Invokes config form args) :
    Condition.ofJson config = Condition.ofCall form args := by
  obtain ⟨_, hcall⟩ := h
  rw [Condition.ofJson, hcall]

/-- A form of a condition is handed over by the reading of values. -/
theorem Provider.ofCall_of_isCondition (h : form.isCondition = true) :
    Provider.ofCall form args = (Condition.ofCall form args).map .condition := by
  cases form with
  | constant | lookup | list | object | file | count => cases h
  | present | all | any | negation | text _ | equal | compare _ => rw [Provider.ofCall]

/-- A form of a value is handed over by the reading of conditions. -/
theorem Condition.ofCall_of_not_isCondition (h : form.isCondition = false) :
    Condition.ofCall form args = (Provider.ofCall form args).map .typed := by
  cases form with
  | constant | lookup | list | object | file | count => rw [Condition.ofCall]
  | present | all | any | negation | text _ | equal | compare _ => cases h

end Calls

/-! ### Items and fields -/

section Parts

variable {items : List Json} {fields : Entries Json}

theorem Provider.ofItems_eq_mapM (items : List Json) :
    Provider.ofItems items = items.mapM Provider.ofJson := by
  induction items with
  | nil =>
    rw [Provider.ofItems]
    rfl
  | cons config rest ih =>
    rw [Provider.ofItems, List.mapM_cons, ih]
    rfl

theorem Condition.ofItems_eq_mapM (items : List Json) :
    Condition.ofItems items = items.mapM Condition.ofJson := by
  induction items with
  | nil =>
    rw [Condition.ofItems]
    rfl
  | cons config rest ih =>
    rw [Condition.ofItems, List.mapM_cons, ih]
    rfl

theorem Provider.ofFields_eq_mapValues (fields : Entries Json) :
    Provider.ofFields fields = Entries.mapValues Provider.ofJson fields := by
  induction fields with
  | nil =>
    rw [Provider.ofFields]
    rfl
  | cons field rest ih =>
    obtain ⟨key, config⟩ := field
    rw [Provider.ofFields, ih]
    rfl

/-- Items that are read one by one are related to what is read of them, if each of them is. -/
theorem forall₂_of_mapM {ε α : Type} {read : Json → Except ε α} {R : Json → α → Prop}
    (each : ∀ config ∈ items, ∀ a, read config = .ok a → R config a) {results : List α}
    (h : items.mapM read = .ok results) : List.Forall₂ R items results := by
  induction items generalizing results with
  | nil =>
    cases h
    exact .nil
  | cons config rest ih =>
    simp only [List.mapM_cons, bind_eq_ok_iff] at h
    obtain ⟨a, ha, others, hothers, ⟨⟩⟩ := h
    obtain ⟨hfirst, hrest⟩ := List.forall_mem_cons.mp each
    exact .cons (hfirst a ha) (ih hrest hothers)

/-- Each part on the right has the one on the left that it is related to. -/
theorem exists_of_forall₂ {α β : Type} {R : α → β → Prop} {xs : List α} {ys : List β}
    (h : List.Forall₂ R xs ys) {y : β} (hy : y ∈ ys) : ∃ x ∈ xs, R x y := by
  induction h with
  | nil => cases hy
  | cons first _ ih =>
    rcases List.mem_cons.mp hy with rfl | hy
    · exact ⟨_, List.mem_cons_self, first⟩
    · obtain ⟨x, hx, related⟩ := ih hy
      exact ⟨x, List.mem_cons_of_mem _ hx, related⟩

namespace Form

theorem exists_of_lookupOf {args : Json} {p : Provider} (h : lookupOf args = .ok p) :
    ∃ path default, p = .lookup path default := by
  unfold lookupOf at h
  split at h
  · cases h
    exact ⟨_, _, rfl⟩
  · split at h
    · cases h
    · obtain ⟨path, -, ⟨⟩⟩ := bind_eq_ok_iff.mp h
      exact ⟨_, _, rfl⟩
  · cases h

/-- The argument of a name is related to what is read of it. -/
def Argument (P : Json → Provider → Prop) (fields : Entries Json) (key : String) (p : Provider) :
    Prop :=
  ∃ config, Entries.find? fields key = some config ∧ P config p

variable {P : Json → Provider → Prop}

theorem argument_of_needed
    (each : ∀ field ∈ fields, ∀ p, Provider.ofJson field.2 = .ok p → P field.2 p)
    {form : Form} {key : String} {p : Provider}
    (h : needed form (Provider.ofFields fields) key = .ok p) : Argument P fields key p := by
  rw [needed, Provider.ofFields_eq_mapValues, Entries.find?_mapValues] at h
  cases hfind : Entries.find? fields key with
  | none =>
    rw [hfind] at h
    cases h
  | some config =>
    rw [hfind] at h
    exact ⟨config, hfind, each _ (Entries.mem_of_find? hfind) p h⟩

theorem exists_of_operandsOf
    (each : ∀ field ∈ fields, ∀ p, Provider.ofJson field.2 = .ok p → P field.2 p)
    {form : Form} {make : Provider → Provider → Condition} {c : Condition}
    (h : operandsOf form make (Provider.ofFields fields) = .ok c) :
    ∃ left right, c = make left right ∧ Argument P fields "left" left ∧
      Argument P fields "right" right := by
  simp only [operandsOf, bind_eq_ok_iff, Except.ok.injEq] at h
  obtain ⟨left, hleft, right, hright, rfl⟩ := h
  exact ⟨left, right, rfl, argument_of_needed each hleft, argument_of_needed each hright⟩

theorem forall₂_of_propertiesOf
    (each : ∀ field ∈ fields, ∀ p, Provider.ofJson field.2 = .ok p → P field.2 p)
    {properties : Entries Provider}
    (h : propertiesOf (Provider.ofFields fields) = .ok properties) :
    List.Forall₂ (fun field property => property.1 = field.1 ∧ P field.2 property.2) fields
      properties := by
  induction fields generalizing properties with
  | nil =>
    rw [Provider.ofFields] at h
    cases h
    exact .nil
  | cons field rest ih =>
    obtain ⟨key, config⟩ := field
    simp only [Provider.ofFields, propertiesOf, bind_eq_ok_iff, Except.ok.injEq] at h
    obtain ⟨p, hp, others, hothers, rfl⟩ := h
    obtain ⟨hfirst, hrest⟩ := List.forall_mem_cons.mp each
    exact .cons ⟨rfl, hfirst p hp⟩ (ih hrest hothers)

end Form

end Parts

/-! ### Written forms -/

section Written

open Form

variable (P : Json → Provider → Prop) (Q : Json → Condition → Prop)

/-- The configuration is a written form of a provider whose parts are related to theirs. -/
inductive Provider.Written (config : Json) : Provider → Prop
  | literal (free : call? config = none) : Written config (.constant (.ofJson config))
  | constant {args : Json} (call : Invokes config .constant args) :
      Written config (.constant (.ofJson args))
  | lookup {args : Json} {p : Provider} (call : Invokes config .lookup args)
      (made : lookupOf args = .ok p) : Written config p
  | list {items : List Json} {providers : List Provider}
      (call : Invokes config .list (.array items)) (each : List.Forall₂ P items providers) :
      Written config (.list providers)
  | object {fields : Entries Json} {properties : Entries Provider}
      (call : Invokes config .object (.object fields))
      (each : List.Forall₂ (fun field property => property.1 = field.1 ∧ P field.2 property.2)
        fields properties) : Written config (.object properties)
  | file {fields : Entries Json} {name content : Provider}
      (call : Invokes config .file (.object fields)) (nameArg : Argument P fields "fileName" name)
      (contentArg : Argument P fields "content" content) : Written config (.file name content)
  | count {args : Json} {list : Provider} (call : Invokes config .count args) (part : P args list) :
      Written config (.count list)
  | condition {c : Condition} (same : Q config c) : Written config (.condition c)

inductive Condition.Written (config : Json) : Condition → Prop
  | typed {p : Provider} (same : P config p) : Written config (.typed p)
  | present {path : String} (call : Invokes config .present (.text path)) :
      Written config (.present (.parse path))
  | all {items : List Json} {conditions : List Condition}
      (call : Invokes config .all (.array items)) (each : List.Forall₂ Q items conditions) :
      Written config (.all conditions)
  | any {items : List Json} {conditions : List Condition}
      (call : Invokes config .any (.array items)) (each : List.Forall₂ Q items conditions) :
      Written config (.any conditions)
  | negation {args : Json} {c : Condition} (call : Invokes config .negation args)
      (part : Q args c) : Written config (.negation c)
  | text {op : TextOperator} {fields : Entries Json} {left right : Provider}
      (call : Invokes config (.text op) (.object fields)) (leftArg : Argument P fields "text" left)
      (rightArg : Argument P fields "value" right) (ignoreCase : Bool) :
      Written config (.text op left right ignoreCase)
  | equal {fields : Entries Json} {left right : Provider}
      (call : Invokes config .equal (.object fields)) (leftArg : Argument P fields "left" left)
      (rightArg : Argument P fields "right" right) : Written config (.equal left right)
  | compare {op : NumberOperator} {fields : Entries Json} {left right : Provider}
      (call : Invokes config (.compare op) (.object fields))
      (leftArg : Argument P fields "left" left) (rightArg : Argument P fields "right" right) :
      Written config (.compare op left right)

/-- Whatever is read of the configuration is related to it. -/
structure Relates (config : Json) : Prop where
  value : ∀ p, Provider.ofJson config = .ok p → P config p
  condition : ∀ c, Condition.ofJson config = .ok c → Q config c

variable {P Q} {config args : Json} {form : Form}

theorem relates_of_item {list : List Json} (call : Invokes config form (.array list))
    (inside : ∀ part, part.size < config.size → Relates P Q part) :
    ∀ part ∈ list, Relates P Q part := by
  intro part hpart
  have hsize := call.size_lt
  have hle := Json.size_le_sizeItems hpart
  rw [Json.size] at hsize
  exact inside part (by omega)

theorem value_of_field {fields : Entries Json} (call : Invokes config form (.object fields))
    (inside : ∀ part, part.size < config.size → Relates P Q part) :
    ∀ field ∈ fields, ∀ p, Provider.ofJson field.2 = .ok p → P field.2 p := by
  intro field hfield
  have hsize := call.size_lt
  have hle := Json.size_le_sizeFields_of_mem hfield
  rw [Json.size] at hsize
  exact (inside field.2 (by omega)).value

theorem Provider.written_of_ofCall (call : Invokes config form args)
    (inside : ∀ part, part.size < config.size → Relates P Q part) (kind : form.isCondition = false)
    {p : Provider} (h : Provider.ofCall form args = .ok p) : Provider.Written P Q config p := by
  cases form with
  | constant =>
    rw [Provider.ofCall] at h
    cases h
    exact .constant call
  | lookup =>
    rw [Provider.ofCall] at h
    exact .lookup call h
  | list =>
    cases args with
    | array list =>
      rw [Provider.ofCall, Provider.ofItems_eq_mapM] at h
      obtain ⟨providers, hproviders, rfl⟩ := map_eq_ok_iff.mp h
      have items := fun part hpart => (relates_of_item call inside part hpart).value
      exact .list call (forall₂_of_mapM items hproviders)
    | null | bool _ | number _ | text _ | object _ => simp [Provider.ofCall] at h
  | object =>
    cases args with
    | object fields =>
      have arguments := value_of_field call inside
      simp only [Provider.ofCall, objectOf, bind_eq_ok_iff] at h
      obtain ⟨properties, hproperties, hnames⟩ := h
      split at hnames
      · cases hnames
        exact .object call (forall₂_of_propertiesOf arguments hproperties)
      · cases hnames
    | null | bool _ | number _ | text _ | array _ => simp [Provider.ofCall] at h
  | file =>
    cases args with
    | object fields =>
      have arguments := value_of_field call inside
      simp only [Provider.ofCall, fileOf, bind_eq_ok_iff, Except.ok.injEq] at h
      obtain ⟨name, hname, content, hcontent, rfl⟩ := h
      exact .file call (argument_of_needed arguments hname) (argument_of_needed arguments hcontent)
    | null | bool _ | number _ | text _ | array _ => simp [Provider.ofCall] at h
  | count =>
    rw [Provider.ofCall] at h
    obtain ⟨list, hlist, rfl⟩ := map_eq_ok_iff.mp h
    exact .count call ((inside args call.size_lt).value list hlist)
  | present | all | any | negation | text _ | equal | compare _ => cases kind

theorem Condition.written_of_ofCall (call : Invokes config form args)
    (inside : ∀ part, part.size < config.size → Relates P Q part) (kind : form.isCondition = true)
    {c : Condition} (h : Condition.ofCall form args = .ok c) : Condition.Written P Q config c := by
  cases form with
  | constant | lookup | list | object | file | count => cases kind
  | present =>
    rw [Condition.ofCall] at h
    obtain ⟨path, hpath, rfl⟩ := map_eq_ok_iff.mp h
    cases args with
    | text s =>
      cases hpath
      exact .present call
    | null | bool _ | number _ | array _ | object _ => cases hpath
  | all =>
    cases args with
    | array list =>
      rw [Condition.ofCall, Condition.ofItems_eq_mapM] at h
      obtain ⟨conditions, hconditions, rfl⟩ := map_eq_ok_iff.mp h
      have items := fun part hpart => (relates_of_item call inside part hpart).condition
      exact .all call (forall₂_of_mapM items hconditions)
    | null | bool _ | number _ | text _ | object _ => simp [Condition.ofCall] at h
  | any =>
    cases args with
    | array list =>
      rw [Condition.ofCall, Condition.ofItems_eq_mapM] at h
      obtain ⟨conditions, hconditions, rfl⟩ := map_eq_ok_iff.mp h
      have items := fun part hpart => (relates_of_item call inside part hpart).condition
      exact .any call (forall₂_of_mapM items hconditions)
    | null | bool _ | number _ | text _ | object _ => simp [Condition.ofCall] at h
  | negation =>
    rw [Condition.ofCall] at h
    obtain ⟨part, hpart, rfl⟩ := map_eq_ok_iff.mp h
    exact .negation call ((inside args call.size_lt).condition part hpart)
  | text op =>
    cases args with
    | object fields =>
      have arguments := value_of_field call inside
      simp only [Condition.ofCall, textOf, bind_eq_ok_iff, Except.ok.injEq] at h
      obtain ⟨left, hleft, right, hright, rfl⟩ := h
      exact .text call (argument_of_needed arguments hleft)
        (argument_of_needed arguments hright) _
    | null | bool _ | number _ | text _ | array _ => simp [Condition.ofCall] at h
  | equal =>
    cases args with
    | object fields =>
      rw [Condition.ofCall] at h
      have arguments := value_of_field call inside
      obtain ⟨left, right, rfl, leftArg, rightArg⟩ := exists_of_operandsOf arguments h
      exact .equal call leftArg rightArg
    | null | bool _ | number _ | text _ | array _ => simp [Condition.ofCall] at h
  | compare op =>
    cases args with
    | object fields =>
      rw [Condition.ofCall] at h
      have arguments := value_of_field call inside
      obtain ⟨left, right, rfl, leftArg, rightArg⟩ := exists_of_operandsOf arguments h
      exact .compare call leftArg rightArg
    | null | bool _ | number _ | text _ | array _ => simp [Condition.ofCall] at h

/-- Relations that hold of a configuration as soon as they hold of what is written in it hold of
everything that is read. -/
theorem relates_of_written (value : ∀ config p, Provider.Written P Q config p → P config p)
    (condition : ∀ config c, Condition.Written P Q config c → Q config c) (config : Json) :
    Relates P Q config := by
  induction hn : config.size using Nat.strongRecOn generalizing config with
  | ind n ih =>
    subst hn
    have inside (part : Json) (h : part.size < config.size) : Relates P Q part := ih _ h part rfl
    rcases literal_or_invokes config with free | ⟨form, args, call⟩
    · have hvalue : ∀ p, Provider.ofJson config = .ok p → P config p := by
        intro p hp
        rw [Provider.ofJson_of_literal free] at hp
        cases hp
        exact value _ _ (.literal free)
      refine ⟨hvalue, fun c hc => ?_⟩
      rw [Condition.ofJson_of_literal free] at hc
      obtain ⟨p, hp, rfl⟩ := map_eq_ok_iff.mp hc
      exact condition _ _ (.typed (hvalue p hp))
    · -- The reading that knows the form comes first, since the other one hands the call to it.
      cases kind : form.isCondition with
      | false =>
        have hvalue : ∀ p, Provider.ofCall form args = .ok p → P config p := fun p hp =>
          value _ _ (Provider.written_of_ofCall call inside kind hp)
        refine ⟨fun p hp => hvalue p (Provider.ofJson_of_invokes call ▸ hp), fun c hc => ?_⟩
        rw [Condition.ofJson_of_invokes call, Condition.ofCall_of_not_isCondition kind] at hc
        obtain ⟨p, hp, rfl⟩ := map_eq_ok_iff.mp hc
        exact condition _ _ (.typed (hvalue p hp))
      | true =>
        have hcondition : ∀ c, Condition.ofCall form args = .ok c → Q config c := fun c hc =>
          condition _ _ (Condition.written_of_ofCall call inside kind hc)
        refine ⟨fun p hp => ?_, fun c hc => hcondition c (Condition.ofJson_of_invokes call ▸ hc)⟩
        rw [Provider.ofJson_of_invokes call, Provider.ofCall_of_isCondition kind] at hp
        obtain ⟨c, hc, rfl⟩ := map_eq_ok_iff.mp hp
        exact value _ _ (.condition (hcondition c hc))

/-! ### Faults -/

namespace FaultProvider

variable {fields : Entries Json} {key : String}

/-- The fields are the written form of a fault whose parts are related to theirs. -/
structure Written (P : Json → Provider → Prop) (fields : Entries Json) (f : FaultProvider) :
    Prop where
  code : Argument P fields "code" f.code
  title : Argument P fields "title" f.title
  message : Argument P fields "message" f.message
  status : Argument P fields "httpStatusCode" f.status
  details : ∀ p ∈ f.details, Argument P fields "additionalDetails" p
  data : ∀ p ∈ f.data, Argument P fields "data" p

theorem argument_of_needed (each : ∀ part p, Provider.ofJson part = .ok p → P part p)
    {p : Provider} (h : needed fields key = .ok p) : Argument P fields key p := by
  unfold needed at h
  split at h
  · cases h
  · next part hfind => exact ⟨part, hfind, each part p h⟩

theorem argument_of_optional (each : ∀ part p, Provider.ofJson part = .ok p → P part p)
    {p : Option Provider} (h : optional fields key = .ok p) :
    ∀ q ∈ p, Argument P fields key q := by
  unfold optional at h
  split at h
  · cases h
    exact nofun
  · next part hfind =>
    obtain ⟨q, hq, rfl⟩ := map_eq_ok_iff.mp h
    rintro _ ⟨⟩
    exact ⟨part, hfind, each part q hq⟩

theorem written_of_ofJson (each : ∀ part p, Provider.ofJson part = .ok p → P part p)
    {f : FaultProvider} (h : ofJson config = .ok f) :
    ∃ fields, config = .object fields ∧ Written P fields f := by
  unfold ofJson at h
  split at h
  · next fields =>
    simp only [bind_eq_ok_iff, Except.ok.injEq] at h
    obtain ⟨_, -, code, hcode, title, htitle, message, hmessage, status, hstatus, details,
      hdetails, data, hdata, rfl⟩ := h
    exact ⟨fields, rfl,
      { code := argument_of_needed each hcode
        title := argument_of_needed each htitle
        message := argument_of_needed each hmessage
        status := argument_of_needed each hstatus
        details := argument_of_optional each hdetails
        data := argument_of_optional each hdata }⟩
  · cases h

end FaultProvider

end Written

end ActionFlow
