import ActionFlow.Proofs.DirectReadings

/-!
# What a provider reads of its context

`Form.lookups` lists the paths that a written provider looks up: its own, and those of the
configurations among its arguments.  Whatever is read from the configuration resolves to the same in
two contexts that give the same at these paths.
-/
namespace ActionFlow

namespace Form

/-- The path that the form itself looks up. -/
def path? : Form → Json → Option Path
  | lookup, .text s | present, .text s => some (.parse s)
  | lookup, .object fields => ((Entries.find? fields "path").bind Json.text?).map .parse
  | _, _ => none

/-- The arguments that are configurations themselves. -/
def parts : Form → Json → List Json
  | list, .array items | all, .array items | any, .array items => items
  | object, .object fields => fields.map Prod.snd
  | file, .object fields => ["fileName", "content"].filterMap (Entries.find? fields)
  | text _, .object fields => ["text", "value"].filterMap (Entries.find? fields)
  | equal, .object fields | compare _, .object fields =>
    ["left", "right"].filterMap (Entries.find? fields)
  | count, args | negation, args => [args]
  | _, _ => []

theorem size_le_of_find? {fields : Entries Json} {keys : List String} {part : Json}
    (h : part ∈ keys.filterMap (Entries.find? fields)) : part.size ≤ (Json.object fields).size := by
  obtain ⟨key, -, hfind⟩ := List.mem_filterMap.mp h
  have hle := Json.size_le_sizeFields_of_mem (Entries.mem_of_find? hfind)
  rw [Json.size]
  dsimp only at hle
  omega

theorem size_le_of_mem_parts {form : Form} {args part : Json} (h : part ∈ parts form args) :
    part.size ≤ args.size := by
  cases form with
  | constant | lookup | present => cases h
  | count | negation => exact Nat.le_of_eq (congrArg Json.size (List.mem_singleton.mp h))
  | list | all | any =>
    cases args with
    | array items =>
      have hle : part.size ≤ Json.sizeItems items := Json.size_le_sizeItems h
      rw [Json.size]
      omega
    | null | bool _ | number _ | text _ | object _ => cases h
  | object =>
    cases args with
    | object fields =>
      obtain ⟨field, hfield, rfl⟩ := List.mem_map.mp h
      have hle := Json.size_le_sizeFields_of_mem hfield
      rw [Json.size]
      omega
    | null | bool _ | number _ | text _ | array _ => cases h
  | file | text _ | equal | compare _ =>
    cases args with
    | object fields => exact size_le_of_find? h
    | null | bool _ | number _ | text _ | array _ => cases h

/-- The paths that a written provider or condition looks up. -/
def lookups (config : Json) : List Path :=
  match call? config with
  | none => []
  | some call =>
    (path? call.form call.args).toList ++
      (parts call.form call.args).attach.flatMap fun ⟨part, _⟩ => lookups part
termination_by config.size
decreasing_by
  exact Nat.lt_of_le_of_lt (size_le_of_mem_parts (by assumption)) call.smaller

theorem lookups_of_invokes {config args : Json} {form : Form} (call : Invokes config form args) :
    lookups config = (path? form args).toList ++ (parts form args).flatMap lookups := by
  obtain ⟨_, hcall⟩ := call
  rw [lookups, hcall]
  simp only [List.flatMap_subtype, List.unattach_attach]

/-- Both contexts give the same at every path that the configuration looks up. -/
def SameLookups (config : Json) (c d : Context) : Prop :=
  ∀ path ∈ lookups config, c.lookup path = d.lookup path

section

variable {config args part : Json} {form : Form} {c d : Context}

theorem SameLookups.own (h : SameLookups config c d) (call : Invokes config form args) {path : Path}
    (hpath : path? form args = some path) : c.lookup path = d.lookup path := by
  apply h
  rw [lookups_of_invokes call, hpath]
  exact List.mem_append_left _ (List.mem_singleton.mpr rfl)

theorem SameLookups.inside (h : SameLookups config c d) (call : Invokes config form args)
    (hpart : part ∈ parts form args) : SameLookups part c d := by
  intro path hpath
  apply h
  rw [lookups_of_invokes call]
  exact List.mem_append_right _ (List.mem_flatMap.mpr ⟨part, hpart, hpath⟩)

theorem path?_of_lookupOf {path : Path} {default : Option Value}
    (h : lookupOf args = .ok (.lookup path default)) : path? lookup args = some path := by
  unfold lookupOf at h
  split at h
  · cases h
    rfl
  · next fields =>
    split at h
    · cases h
    · next j hfind =>
      obtain ⟨_, hpath, ⟨⟩⟩ := bind_eq_ok_iff.mp h
      unfold pathOf at hpath
      split at hpath
      · cases hpath
        rw [path?, hfind]
        rfl
      · cases hpath
  · cases h

end

end Form

/-! ### Resolving in two contexts -/

section Resolving

variable {c d : Context}

theorem Provider.resolveItems_congr {items : List Provider}
    (h : ∀ p ∈ items, p.resolve c = p.resolve d) :
    Provider.resolveItems c items = Provider.resolveItems d items := by
  induction items with
  | nil => rw [Provider.resolveItems, Provider.resolveItems]
  | cons p rest ih =>
    obtain ⟨hfirst, hrest⟩ := List.forall_mem_cons.mp h
    rw [Provider.resolveItems, Provider.resolveItems, hfirst, ih hrest]

theorem Provider.resolveProperties_congr {properties : Entries Provider}
    (h : ∀ property ∈ properties, property.2.resolve c = property.2.resolve d)
    (done : Entries Value) : Provider.resolveProperties c done properties =
      Provider.resolveProperties d done properties := by
  induction properties generalizing done with
  | nil => rw [Provider.resolveProperties, Provider.resolveProperties]
  | cons property rest ih =>
    obtain ⟨name, p⟩ := property
    obtain ⟨hfirst, hrest⟩ := List.forall_mem_cons.mp h
    simp only [Provider.resolveProperties, hfirst, ih hrest]

theorem Condition.resolveAll_congr {conditions : List Condition}
    (h : ∀ q ∈ conditions, q.resolve c = q.resolve d) :
    Condition.resolveAll c conditions = Condition.resolveAll d conditions := by
  induction conditions with
  | nil => rw [Condition.resolveAll, Condition.resolveAll]
  | cons q rest ih =>
    obtain ⟨hfirst, hrest⟩ := List.forall_mem_cons.mp h
    rw [Condition.resolveAll, Condition.resolveAll, hfirst, ih hrest]

theorem Condition.resolveAny_congr {conditions : List Condition}
    (h : ∀ q ∈ conditions, q.resolve c = q.resolve d) :
    Condition.resolveAny c conditions = Condition.resolveAny d conditions := by
  induction conditions with
  | nil => rw [Condition.resolveAny, Condition.resolveAny]
  | cons q rest ih =>
    obtain ⟨hfirst, hrest⟩ := List.forall_mem_cons.mp h
    rw [Condition.resolveAny, Condition.resolveAny, hfirst, ih hrest]

theorem Provider.resolveAs_congr {α : Type} (conversion : Conversion α) {p : Provider}
    (h : p.resolve c = p.resolve d) : p.resolveAs conversion c = p.resolveAs conversion d := by
  rw [Provider.resolveAs, Provider.resolveAs, h]

end Resolving

/-! ### Readings resolve to what they look up -/

section Readings

open Form

variable {config : Json} {form : Form} {fields : Entries Json} {c d : Context}

/-- What a provider or condition resolves to follows from what its configuration looks up. -/
abbrev Provider.Follows (c d : Context) (config : Json) (p : Provider) : Prop :=
  SameLookups config c d → p.resolve c = p.resolve d

abbrev Condition.Follows (c d : Context) (config : Json) (q : Condition) : Prop :=
  SameLookups config c d → q.resolve c = q.resolve d

theorem Form.SameLookups.argument (h : SameLookups config c d)
    (call : Invokes config form (.object fields)) {keys : List String}
    (hparts : parts form (.object fields) = keys.filterMap (Entries.find? fields)) {key : String}
    (hkey : key ∈ keys) {p : Provider} (arg : Argument (Provider.Follows c d) fields key p) :
    p.resolve c = p.resolve d := by
  obtain ⟨part, hfind, follows⟩ := arg
  apply follows
  apply h.inside call
  rw [hparts]
  exact List.mem_filterMap.mpr ⟨key, hkey, hfind⟩

theorem Provider.follows_of_written {p : Provider}
    (h : Provider.Written (Provider.Follows c d) (Condition.Follows c d) config p) :
    p.Follows c d config := by
  intro same
  cases h with
  | literal _ | constant _ => rw [Provider.resolve, Provider.resolve]
  | lookup call made =>
    obtain ⟨path, default, rfl⟩ := exists_of_lookupOf made
    rw [Provider.resolve, Provider.resolve, same.own call (path?_of_lookupOf made)]
  | list call each =>
    rw [Provider.resolve, Provider.resolve]
    rw [Provider.resolveItems_congr fun p hp => ?_]
    obtain ⟨part, hpart, follows⟩ := exists_of_forall₂ each hp
    exact follows (same.inside call hpart)
  | object call each =>
    rw [Provider.resolve, Provider.resolve]
    rw [Provider.resolveProperties_congr fun property hproperty => ?_]
    obtain ⟨field, hfield, -, follows⟩ := exists_of_forall₂ each hproperty
    exact follows (same.inside call (List.mem_map_of_mem hfield))
  | file call nameArg contentArg =>
    have hname := same.argument call rfl (by decide) nameArg
    have hcontent := same.argument call rfl (by decide) contentArg
    rw [Provider.resolve, Provider.resolve, hname, hcontent]
  | count call follows =>
    rw [Provider.resolve, Provider.resolve, follows (same.inside call (List.mem_singleton.mpr rfl))]
  | condition follows => rw [Provider.resolve, Provider.resolve, follows same]

theorem Condition.follows_of_written {q : Condition}
    (h : Condition.Written (Provider.Follows c d) (Condition.Follows c d) config q) :
    q.Follows c d config := by
  intro same
  cases h with
  | typed follows => rw [Condition.resolve, Condition.resolve, follows same]
  | present call => rw [Condition.resolve, Condition.resolve, same.own call rfl]
  | all call each =>
    rw [Condition.resolve, Condition.resolve]
    refine Condition.resolveAll_congr fun q hq => ?_
    obtain ⟨part, hpart, follows⟩ := exists_of_forall₂ each hq
    exact follows (same.inside call hpart)
  | any call each =>
    rw [Condition.resolve, Condition.resolve]
    refine Condition.resolveAny_congr fun q hq => ?_
    obtain ⟨part, hpart, follows⟩ := exists_of_forall₂ each hq
    exact follows (same.inside call hpart)
  | negation call follows =>
    rw [Condition.resolve, Condition.resolve,
      follows (same.inside call (List.mem_singleton.mpr rfl))]
  | text call leftArg rightArg _ | equal call leftArg rightArg | compare call leftArg rightArg =>
    have hleft := same.argument call rfl (by decide) leftArg
    have hright := same.argument call rfl (by decide) rightArg
    rw [Condition.resolve, Condition.resolve, hleft, hright]

theorem follows_relates (c d : Context) (config : Json) :
    Relates (Provider.Follows c d) (Condition.Follows c d) config :=
  relates_of_written (fun _ _ => Provider.follows_of_written)
    (fun _ _ => Condition.follows_of_written) config

theorem IntegerProvider.follows_ofJson {i : IntegerProvider} (h : ofJson config = .ok i)
    (same : SameLookups config c d) : i.resolve c = i.resolve d := by
  have agree := ofJson_agrees config
  rw [h] at agree
  obtain ⟨p, hp, related⟩ := agree.exists_of_ok
  rw [related, related]
  exact Provider.resolveAs_congr _ ((follows_relates c d config).value p hp same)

namespace FaultProvider

def fieldNames : List String :=
  ["code", "title", "message", "httpStatusCode", "additionalDetails", "data"]

/-- The paths that the fields of a written fault look up. -/
def lookups : Json → List Path
  | .object fields => (fieldNames.filterMap (Entries.find? fields)).flatMap Form.lookups
  | _ => []

variable {key : String}

theorem resolve_eq_of_argument
    (same : ∀ path ∈ lookups (.object fields), c.lookup path = d.lookup path)
    (hkey : key ∈ fieldNames) {p : Provider}
    (arg : Argument (Provider.Follows c d) fields key p) : p.resolve c = p.resolve d := by
  obtain ⟨part, hfind, follows⟩ := arg
  apply follows
  intro path hpath
  exact same path
    (List.mem_flatMap.mpr ⟨part, List.mem_filterMap.mpr ⟨key, hkey, hfind⟩, hpath⟩)

theorem resolveDetails_congr {details : Option Provider}
    (h : ∀ q ∈ details, q.resolve c = q.resolve d) :
    resolveDetails c details = resolveDetails d details := by
  cases details with
  | none => rfl
  | some q => rw [resolveDetails, resolveDetails, Provider.resolveAs_congr _ (h q rfl)]

theorem resolveData_congr {data : Option Provider}
    (h : ∀ q ∈ data, q.resolve c = q.resolve d) : resolveData c data = resolveData d data := by
  cases data with
  | none => rfl
  | some q => rw [resolveData, resolveData, h q rfl]

theorem follows_ofJson (same : ∀ path ∈ lookups config, c.lookup path = d.lookup path)
    {f : FaultProvider} (h : ofJson config = .ok f) : f.resolve c = f.resolve d := by
  obtain ⟨fields, rfl, written⟩ :=
    written_of_ofJson (fun part => (follows_relates c d part).value) h
  have hcode := resolve_eq_of_argument same (by decide) written.code
  have htitle := resolve_eq_of_argument same (by decide) written.title
  have hmessage := resolve_eq_of_argument same (by decide) written.message
  have hstatus := resolve_eq_of_argument same (by decide) written.status
  have hdetails := resolveDetails_congr fun p hp =>
    resolve_eq_of_argument same (by decide) (written.details p hp)
  have hdata := resolveData_congr fun p hp =>
    resolve_eq_of_argument same (by decide) (written.data p hp)
  simp only [resolve, Provider.resolveAs, hcode, htitle, hmessage, hstatus, hdetails, hdata]

end FaultProvider

/-- Providers read only what they name: two contexts that give the same at every path that a
configuration looks up cannot be told apart by what is read from it, whatever else they hold. -/
theorem resolve_eq_of_same_lookups (config : Json) (c d : Context) :
    ((∀ path ∈ Form.lookups config, c.lookup path = d.lookup path) →
      (∀ p, Provider.ofJson config = .ok p → p.resolve c = p.resolve d) ∧
      (∀ q, Condition.ofJson config = .ok q → q.resolve c = q.resolve d) ∧
      ∀ i, IntegerProvider.ofJson config = .ok i → i.resolve c = i.resolve d) ∧
    ((∀ path ∈ FaultProvider.lookups config, c.lookup path = d.lookup path) →
      ∀ f, FaultProvider.ofJson config = .ok f → f.resolve c = f.resolve d) := by
  constructor
  · intro same
    have related := follows_relates c d config
    exact ⟨fun p hp => related.value p hp same, fun q hq => related.condition q hq same,
      fun i hi => IntegerProvider.follows_ofJson hi same⟩
  · intro same f hf
    exact FaultProvider.follows_ofJson same hf

/-- A count of two items, of which the first one looks `variables/x` up; what is written of
`variables/y` stands for itself. -/
def countOfTwo : Json :=
  let inert := Json.object [("objectPathLookup", .text "variables/y")]
  .object
    [("countList", .object
      [("list", .array
        [.object [("objectPathLookup", .object
            [("path", .text "variables/x"), ("default", inert)])],
         .object [("static", inert)]])])]

/-- The list that is counted. -/
def twoItems : Provider :=
  let inert := Value.object [("objectPathLookup", .text "variables/y")]
  .list [.lookup (.parse "variables/x") (some inert), .constant inert]

def faultOfTwo : Json :=
  .object
    [("code", .object [("objectPathLookup", .text "variables/x")]), ("title", .text "refused"),
     ("message", .text "variables/y"), ("httpStatusCode", countOfTwo)]

theorem resolve_eq_of_same_lookups_counted :
    let c : Context := { Context.start "r" "t" .null with vars := [("x", .integer 1)] }
    let d : Context := { c with vars := [("x", .integer 1), ("y", .integer 2)] }
    c.lookup (.parse "variables/y") ≠ d.lookup (.parse "variables/y") ∧
      (∃ p, Provider.ofJson countOfTwo = .ok p ∧ p.resolve c = p.resolve d) ∧
      (∃ q, Condition.ofJson countOfTwo = .ok q ∧ q.resolve c = q.resolve d) ∧
      (∃ i, IntegerProvider.ofJson countOfTwo = .ok i ∧ i.resolve c = i.resolve d) ∧
      ∃ f, FaultProvider.ofJson faultOfTwo = .ok f ∧ f.resolve c = f.resolve d := by
  intro c d
  have hx : c.lookup (.parse "variables/x") = d.lookup (.parse "variables/x") := by cbv
  have hy : c.lookup (.parse "variables/y") = none := by cbv
  have hy' : d.lookup (.parse "variables/y") = some (.integer 2) := by cbv
  have hcount : ∀ path ∈ Form.lookups countOfTwo, c.lookup path = d.lookup path := by
    have hlookups : Form.lookups countOfTwo = [.parse "variables/x"] := by cbv
    rw [hlookups]
    exact List.forall_mem_singleton.mpr hx
  have hfault : ∀ path ∈ FaultProvider.lookups faultOfTwo, c.lookup path = d.lookup path := by
    have hlookups : FaultProvider.lookups faultOfTwo =
        [.parse "variables/x", .parse "variables/x"] := by cbv
    rw [hlookups]
    exact List.forall_mem_cons.mpr ⟨hx, List.forall_mem_singleton.mpr hx⟩
  have hp : Provider.ofJson countOfTwo = .ok (.count twoItems) := by cbv
  have hq : Condition.ofJson countOfTwo = .ok (.typed (.count twoItems)) := by cbv
  have hi : IntegerProvider.ofJson countOfTwo = .ok (.count twoItems) := by cbv
  have hf : FaultProvider.ofJson faultOfTwo =
      .ok ⟨.lookup (.parse "variables/x") none, .constant (.text "refused"),
        .constant (.text "variables/y"), .count twoItems, none, none⟩ := by cbv
  obtain ⟨value, condition, integer⟩ := (resolve_eq_of_same_lookups countOfTwo c d).1 hcount
  have fault := (resolve_eq_of_same_lookups faultOfTwo c d).2 hfault
  refine ⟨?_, ⟨_, hp, value _ hp⟩, ⟨_, hq, condition _ hq⟩, ⟨_, hi, integer _ hi⟩,
    ⟨_, hf, fault _ hf⟩⟩
  rw [hy, hy']
  exact (Option.some_ne_none _).symm

end Readings

end ActionFlow
