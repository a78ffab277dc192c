import ActionFlow.Proofs.Building
import ActionFlow.Proofs.CalmReadings
import ActionFlow.Proofs.SoundTurns

/-!
# Only valid faults

If the handlers of a registry raise valid faults only, then every fault that a run of an automation
built with it leaves is valid, wherever it was made and however far it went.
-/
namespace ActionFlow.Registry

/-- The handlers of the registered types raise valid faults only. -/
def Sound (r : Registry) : Prop :=
  ∀ type make d logic, Entries.find? r.factories type = some (.custom make) → make d = .ok logic →
    (Kind.simple logic : Kind Action).Sound

/-- No provider that a registered type supplies panics. -/
def Calm (r : Registry) : Prop :=
  ∀ type make d logic, Entries.find? r.factories type = some (.custom make) → make d = .ok logic →
    logic.Calm

theorem sound_builtIn : builtIn.Sound := fun type make _ _ factory _ =>
  absurd factory (not_custom type make)

theorem calm_builtIn : builtIn.Calm := fun type make _ _ factory _ =>
  absurd factory (not_custom type make)

variable {r : Registry}

/-- The factory that is found after a handler was registered makes calls of it, or was there. -/
theorem factory_registerHandler {handler : Handler} {type : String} {factory : Factory}
    (h : Entries.find? (r.registerHandler handler).factories type = some factory) :
    factory = .custom (fun _ => .ok (.external handler)) ∨
      Entries.find? r.factories type = some factory := by
  by_cases ht : type = handler.typeName
  · subst ht
    left
    rw [registerHandler, register, Entries.find?_put_self] at h
    exact (Option.some.inj h).symm
  · right
    rw [registerHandler, register, Entries.find?_put_of_ne _ _ ht] at h
    exact h

theorem Sound.registerHandler (h : r.Sound) {handler : Handler} (hh : handler.Sound) :
    (r.registerHandler handler).Sound := by
  intro type make d logic factory made
  rcases factory_registerHandler factory with he | hfound
  · cases he
    cases made
    rintro _ ⟨⟩
    exact hh
  · exact h type make d logic hfound made

theorem Calm.registerHandler (h : r.Calm) (handler : Handler) :
    (r.registerHandler handler).Calm := by
  intro type make d logic factory made
  rcases factory_registerHandler factory with he | hfound
  · cases he
    cases made
    trivial
  · exact h type make d logic hfound made

variable {P : ActionDefinition → Action → Prop} {d : ActionDefinition}

/-! ### What is built is sound -/

theorem BuiltKind.sound (handlers : r.Sound) {kind : Kind Action} (h : BuiltKind r P d kind) :
    kind.Sound := by
  cases h with
  | group factory written inside flag => exact nofun
  | iterate factory written inside loop => exact nofun
  | raiseError factory made => exact nofun
  | setVariable factory made => exact nofun
  | custom factory made => exact handlers _ _ _ _ factory made

theorem sound_of_buildAutomation (handlers : r.Sound) {definition : Definition} {a : Automation}
    (built : r.buildAutomation definition = .ok a) :
    ∀ b ∈ Action.forest a.actions, b.kind.Sound := by
  intro b hb
  obtain ⟨d, hd⟩ := exists_builds_of_mem_forest built b hb
  exact (builds_iff.mp hd).kind.sound handlers

/-! ### What is built is calm -/

theorem calm_optionally {α : Type} {read : Json → Except FormError α} {C : α → Prop}
    (hread : ∀ j a, read j = .ok a → C a) {j : Option Json} {result : Option α}
    (h : optionally j read = .ok result) : ∀ a ∈ result, C a := by
  cases j with
  | none =>
    cases h
    exact nofun
  | some j =>
    obtain ⟨a, ha, rfl⟩ := map_eq_ok_iff.mp h
    rintro _ ⟨⟩
    exact hread j a (mapError_eq_ok_iff.mp ha)

theorem calm_errorConditions {definitions : List ErrorConditionDefinition}
    {conditions : List ErrorCondition} (h : errorConditions definitions = .ok conditions) :
    ∀ e ∈ conditions, e.Calm := by
  induction definitions generalizing conditions with
  | nil =>
    cases h
    exact nofun
  | cons d rest ih =>
    simp only [errorConditions, errorCondition, reading, bind_eq_ok_iff, mapError_eq_ok_iff,
      Except.ok.injEq] at h
    obtain ⟨_, ⟨condition, hcondition, fault, hfault, rfl⟩, others, hothers, rfl⟩ := h
    refine List.forall_mem_cons.mpr ⟨?_, ih hothers⟩
    exact ⟨Condition.calm_ofJson hcondition, FaultProvider.calm_ofJson hfault⟩

theorem BuiltHead.calm {head : Head} (h : BuiltHead d head) : head.Calm where
  runCondition := calm_optionally (fun _ _ => Condition.calm_ofJson) h.runCondition
  before := calm_errorConditions h.before
  after := calm_errorConditions h.after

theorem calm_loop {l : Loop} (h : loop d = .ok l) : l.Calm := by
  simp only [loop, reading, bind_eq_ok_iff, mapError_eq_ok_iff, Except.ok.injEq] at h
  obtain ⟨_, _, list, hlist, first, hfirst, last, hlast, reverse, hreverse, doWhile, hdoWhile,
    rfl⟩ := h
  exact {
    list := Provider.calm_ofJson hlist
    startIndex := calm_optionally (fun _ _ => IntegerProvider.calm_ofJson) hfirst
    endIndex := calm_optionally (fun _ _ => IntegerProvider.calm_ofJson) hlast
    reverse := calm_optionally (fun _ _ => Condition.calm_ofJson) hreverse
    doWhile := calm_optionally (fun _ _ => Condition.calm_ofJson) hdoWhile }

theorem calm_raising {logic : Logic} (h : raising d = .ok logic) : logic.Calm := by
  simp only [raising, reading, bind_eq_ok_iff, mapError_eq_ok_iff, Except.ok.injEq] at h
  obtain ⟨_, _, fault, hfault, rfl⟩ := h
  exact FaultProvider.calm_ofJson hfault

theorem calm_assigning {logic : Logic} (h : assigning d = .ok logic) : logic.Calm := by
  simp only [assigning, reading, bind_eq_ok_iff, mapError_eq_ok_iff, Except.ok.injEq] at h
  obtain ⟨_, _, _, _, value, hvalue, property, hproperty, path, hpath, rfl⟩ := h
  have hgiven := calm_optionally (fun _ _ => Provider.calm_ofJson) hvalue
  refine ⟨Provider.calm_ofJson hproperty,
    calm_optionally (fun _ _ => Provider.calm_ofJson) hpath, ?_⟩
  cases value with
  | none =>
    show (Provider.constant .null).Calm
    rw [Provider.Calm]
    trivial
  | some p => exact hgiven p rfl

theorem BuiltKind.calm (supplied : r.Calm) {kind : Kind Action} (h : BuiltKind r P d kind) :
    kind.Calm := by
  cases h with
  | group factory written inside flag => trivial
  | iterate factory written inside loop => exact calm_loop loop
  | raiseError factory made => exact calm_raising made
  | setVariable factory made => exact calm_assigning made
  | custom factory made => exact supplied _ _ _ _ factory made

theorem calm_of_buildAutomation (supplied : r.Calm) {definition : Definition} {a : Automation}
    (built : r.buildAutomation definition = .ok a) : a.Calm := by
  intro b hb
  obtain ⟨d, hd⟩ := exists_builds_of_mem_forest built b hb
  have parts := builds_iff.mp hd
  exact ⟨parts.head.calm, parts.kind.calm supplied⟩

/-! ### Runs -/

/-- A run of what was built, in any order of the tasks, leaves only faults that pass the check. -/
theorem valid_faults (handlers : r.Sound) {definition : Definition} {a : Automation}
    (built : r.buildAutomation definition = .ok a) (ctx : Context) :
    (r.Calm → ∃ o, a.outcome ctx = .ok o) ∧
    (∀ o, a.outcome ctx = .ok o → (∀ fault ∈ o.error, fault.validate = .ok ()) ∧
      ∀ record ∈ Record.forest o.actions, ∀ fault ∈ record.fault, fault.validate = .ok ()) ∧
    ∀ turns result records last, a.Schedule ctx turns result records last →
      (∀ fault, result = .error fault → fault.validate = .ok ()) ∧
      ∀ record ∈ Record.forest records, ∀ fault ∈ record.fault, fault.validate = .ok () := by
  have hsound := sound_of_buildAutomation handlers built
  refine ⟨fun supplied => (calm_of_buildAutomation supplied built).exists_outcome ctx, ?_, ?_⟩
  · intro o ho
    obtain ⟨herror, hrecords⟩ := Automation.sound_outcome hsound ho
    constructor
    · intro fault hfault
      exact fault.validate_eq_ok_iff.mpr (herror fault hfault)
    · intro record hrecord fault hfault
      exact fault.validate_eq_ok_iff.mpr (hrecords record hrecord fault hfault)
  · intro turns result records last hschedule
    obtain ⟨hcaught, hrecords⟩ := Automation.sound_schedule hsound hschedule
    constructor
    · intro fault hfault
      exact fault.validate_eq_ok_iff.mpr (hcaught fault hfault)
    · intro record hrecord fault hfault
      exact fault.validate_eq_ok_iff.mpr (hrecords record hrecord fault hfault)

/-! ### A handler that refuses -/

def refusal : Fault := .simple "refused" "" "" 404

def refusing : Handler where
  typeName := "refuse"
  readOnly := true
  handle c := ⟨none, .error (.fault refusal), c, []⟩

def refused : Automation where
  name := "main"
  actions :=
    [{ head := { name := "call", key := "call" }
       kind := .simple (.external refusing)
       errorActions := [] }]

theorem builds_refused :
    (builtIn.registerHandler refusing).buildAutomation
      ⟨"main", none, [.minimal "refuse" "call" []]⟩ = .ok refused := by
  rw [buildAutomation_eq_ok_iff]
  refine ⟨rfl, .cons (builds_iff.mpr ?_) .nil, by decide⟩
  exact ⟨by decide, ⟨rfl, rfl, rfl, rfl, rfl, rfl, rfl⟩, .custom rfl rfl, ⟨.nil, .nil⟩⟩

theorem valid_faults_refused :
    (builtIn.registerHandler refusing).Sound ∧
      (builtIn.registerHandler refusing).buildAutomation
        ⟨"main", none, [.minimal "refuse" "call" []]⟩ = .ok refused ∧
      ∃ o, refused.outcome (.start "run" "now" .null) = .ok o ∧ o.error = some refusal ∧
        (∀ fault ∈ o.error, fault.validate = .ok ()) ∧
        ∀ record ∈ Record.forest o.actions, ∀ fault ∈ record.fault, fault.validate = .ok () := by
  have hrefusing : refusing.Sound := by
    rintro c _ ⟨⟩
    have hchecked : refusal.validate = .ok () := rfl
    exact refusal.validate_eq_ok_iff.mp hchecked
  have hsound := sound_builtIn.registerHandler hrefusing
  obtain ⟨hexists, hvalid, -⟩ := valid_faults hsound builds_refused (.start "run" "now" .null)
  obtain ⟨o, ho⟩ := hexists (calm_builtIn.registerHandler refusing)
  refine ⟨hsound, builds_refused, o, ho, ?_, hvalid o ho⟩
  have herror : (refused.outcome (.start "run" "now" .null)).map Outcome.error =
      .ok (some refusal) := rfl
  rw [ho] at herror
  exact Except.ok.inj herror

end ActionFlow.Registry
