import ActionFlow.Provider.Basic

/-!
# Providers without panics

A provider is calm if no provider in it that the surroundings supply panics in any context; the
built-in forms never panic by themselves.
-/
namespace ActionFlow

mutual
/-- No provider in `p` that the surroundings supply panics. -/
def Provider.Calm : Provider → Prop
  | .constant _ => True
  | .lookup _ _ => True
  | .list items => Provider.CalmItems items
  | .object properties => Provider.CalmProperties properties
  | .file name content => name.Calm ∧ content.Calm
  | .count list => list.Calm
  | .condition c => c.Calm
  | .custom resolve => ∀ ctx panic, resolve ctx ≠ .error (.panic panic)

def Provider.CalmItems : List Provider → Prop
  | [] => True
  | p :: rest => p.Calm ∧ Provider.CalmItems rest

def Provider.CalmProperties : List (String × Provider) → Prop
  | [] => True
  | (_, p) :: rest => p.Calm ∧ Provider.CalmProperties rest

def Condition.Calm : Condition → Prop
  | .typed p => p.Calm
  | .present _ => True
  | .all conditions => Condition.CalmItems conditions
  | .any conditions => Condition.CalmItems conditions
  | .negation c => c.Calm
  | .text _ text value _ => text.Calm ∧ value.Calm
  | .equal left right => left.Calm ∧ right.Calm
  | .compare _ left right => left.Calm ∧ right.Calm

def Condition.CalmItems : List Condition → Prop
  | [] => True
  | c :: rest => c.Calm ∧ Condition.CalmItems rest
end

def Resolution.Calm {α : Type} (r : Resolution α) : Prop := ∀ panic, r ≠ .error (.panic panic)

namespace Resolution

variable {α β : Type}

theorem calm_ok (a : α) : Calm (.ok a) := nofun

theorem calm_fail (e : ProviderError) : Calm (fail e : Resolution α) := nofun

theorem calm_bind {r : Resolution α} {next : α → Resolution β} (hr : Calm r)
    (hnext : ∀ a, Calm (next a)) : Calm (r >>= next) := by
  cases r with
  | ok a => exact hnext a
  | error stop =>
    intro panic hp
    cases hp
    exact hr panic rfl

theorem calm_apply (c : Conversion α) (v : Value) : Calm (c.apply v) := by
  unfold Conversion.apply
  split
  · exact calm_ok _
  · exact calm_fail _

theorem calm_fileContent (v : Value) : Calm (fileContent v) := by
  cases v <;> nofun

theorem calm_countOf (items : List Value) : Calm (countOf items) := by
  unfold countOf
  split
  · exact calm_ok _
  · exact calm_fail _

end Resolution

section Providers

open Resolution

-- The induction is on the provider, along the cases of its resolution.
mutual
theorem Provider.calm_resolve (ctx : Context) (p : Provider) (h : p.Calm) :
    Resolution.Calm (p.resolve ctx) := by
  match p with
  | .constant value =>
    rw [Provider.resolve]
    exact calm_ok _
  | .lookup path default =>
    rw [Provider.resolve]
    split
    · exact calm_ok _
    · exact calm_fail _
  | .list items =>
    rw [Provider.Calm] at h
    rw [Provider.resolve]
    exact calm_bind (Provider.calm_resolveItems ctx items h) fun _ => calm_ok _
  | .object properties =>
    rw [Provider.Calm] at h
    rw [Provider.resolve]
    exact calm_bind (Provider.calm_resolveProperties ctx [] properties h) fun _ => calm_ok _
  | .file name content =>
    rw [Provider.Calm] at h
    rw [Provider.resolve]
    refine calm_bind (Provider.calm_resolve ctx name h.1) fun _ => ?_
    refine calm_bind (calm_apply _ _) fun _ => ?_
    refine calm_bind (Provider.calm_resolve ctx content h.2) fun _ => ?_
    exact calm_bind (calm_fileContent _) fun _ => calm_ok _
  | .count list =>
    rw [Provider.Calm] at h
    rw [Provider.resolve]
    refine calm_bind (Provider.calm_resolve ctx list h) fun _ => ?_
    refine calm_bind (calm_apply _ _) fun _ => ?_
    exact calm_bind (calm_countOf _) fun _ => calm_ok _
  | .condition c =>
    rw [Provider.Calm] at h
    rw [Provider.resolve]
    exact calm_bind (Condition.calm_resolve ctx c h) fun _ => calm_ok _
  | .custom resolve =>
    rw [Provider.Calm] at h
    rw [Provider.resolve]
    exact h ctx

theorem Provider.calm_resolveItems (ctx : Context) (items : List Provider)
    (h : Provider.CalmItems items) : Resolution.Calm (Provider.resolveItems ctx items) := by
  match items with
  | [] =>
    rw [Provider.resolveItems]
    exact calm_ok _
  | p :: rest =>
    rw [Provider.CalmItems] at h
    rw [Provider.resolveItems]
    refine calm_bind (Provider.calm_resolve ctx p h.1) fun _ => ?_
    exact calm_bind (Provider.calm_resolveItems ctx rest h.2) fun _ => calm_ok _

theorem Provider.calm_resolveProperties (ctx : Context) (done : Entries Value)
    (properties : List (String × Provider)) (h : Provider.CalmProperties properties) :
    Resolution.Calm (Provider.resolveProperties ctx done properties) := by
  match properties with
  | [] =>
    rw [Provider.resolveProperties]
    exact calm_ok _
  | (name, p) :: rest =>
    rw [Provider.CalmProperties] at h
    rw [Provider.resolveProperties]
    refine calm_bind (Provider.calm_resolve ctx p h.1) fun _ => ?_
    exact Provider.calm_resolveProperties ctx _ rest h.2

theorem Condition.calm_resolve (ctx : Context) (c : Condition) (h : c.Calm) :
    Resolution.Calm (c.resolve ctx) := by
  match c with
  | .typed p =>
    rw [Condition.Calm] at h
    rw [Condition.resolve]
    exact calm_bind (Provider.calm_resolve ctx p h) fun _ => calm_apply _ _
  | .present path =>
    rw [Condition.resolve]
    split <;> exact calm_ok _
  | .all conditions =>
    rw [Condition.Calm] at h
    rw [Condition.resolve]
    exact Condition.calm_resolveAll ctx conditions h
  | .any conditions =>
    rw [Condition.Calm] at h
    rw [Condition.resolve]
    exact Condition.calm_resolveAny ctx conditions h
  | .negation c =>
    rw [Condition.Calm] at h
    rw [Condition.resolve]
    exact calm_bind (Condition.calm_resolve ctx c h) fun _ => calm_ok _
  | .text op text value ignoreCase =>
    rw [Condition.Calm] at h
    rw [Condition.resolve]
    refine calm_bind (Provider.calm_resolve ctx text h.1) fun _ => ?_
    refine calm_bind (calm_apply _ _) fun _ => ?_
    refine calm_bind (Provider.calm_resolve ctx value h.2) fun _ => ?_
    exact calm_bind (calm_apply _ _) fun _ => calm_ok _
  | .equal left right =>
    rw [Condition.Calm] at h
    rw [Condition.resolve]
    refine calm_bind (Provider.calm_resolve ctx left h.1) fun _ => ?_
    exact calm_bind (Provider.calm_resolve ctx right h.2) fun _ => calm_ok _
  | .compare op left right =>
    rw [Condition.Calm] at h
    rw [Condition.resolve]
    refine calm_bind (Provider.calm_resolve ctx left h.1) fun _ => ?_
    refine calm_bind (calm_apply _ _) fun _ => ?_
    refine calm_bind (Provider.calm_resolve ctx right h.2) fun _ => ?_
    exact calm_bind (calm_apply _ _) fun _ => calm_ok _

theorem Condition.calm_resolveAll (ctx : Context) (conditions : List Condition)
    (h : Condition.CalmItems conditions) :
    Resolution.Calm (Condition.resolveAll ctx conditions) := by
  match conditions with
  | [] =>
    rw [Condition.resolveAll]
    exact calm_ok _
  | c :: rest =>
    rw [Condition.CalmItems] at h
    rw [Condition.resolveAll]
    refine calm_bind (Condition.calm_resolve ctx c h.1) fun b => ?_
    cases b with
    | true => exact Condition.calm_resolveAll ctx rest h.2
    | false => exact calm_ok _

theorem Condition.calm_resolveAny (ctx : Context) (conditions : List Condition)
    (h : Condition.CalmItems conditions) :
    Resolution.Calm (Condition.resolveAny ctx conditions) := by
  match conditions with
  | [] =>
    rw [Condition.resolveAny]
    exact calm_ok _
  | c :: rest =>
    rw [Condition.CalmItems] at h
    rw [Condition.resolveAny]
    refine calm_bind (Condition.calm_resolve ctx c h.1) fun b => ?_
    cases b with
    | true => exact calm_ok _
    | false => exact Condition.calm_resolveAny ctx rest h.2
end

theorem Provider.calm_resolveAs {α : Type} (c : Conversion α) {p : Provider} (h : p.Calm)
    (ctx : Context) : Resolution.Calm (p.resolveAs c ctx) := by
  unfold Provider.resolveAs
  exact calm_bind (Provider.calm_resolve ctx p h) fun _ => calm_apply _ _

def IntegerProvider.Calm : IntegerProvider → Prop
  | .typed p => p.Calm
  | .count list => list.Calm

theorem IntegerProvider.calm_resolve {p : IntegerProvider} (h : p.Calm) (ctx : Context) :
    Resolution.Calm (p.resolve ctx) := by
  cases p with
  | typed p => exact Provider.calm_resolveAs _ h ctx
  | count list => exact calm_bind (Provider.calm_resolveAs _ h ctx) fun _ => calm_countOf _

structure FaultProvider.Calm (p : FaultProvider) : Prop where
  code : p.code.Calm
  title : p.title.Calm
  message : p.message.Calm
  status : p.status.Calm
  details : ∀ q ∈ p.details, q.Calm
  data : ∀ q ∈ p.data, q.Calm

namespace FaultProvider

theorem calm_statusOf (i : Int) : Resolution.Calm (statusOf i) := by
  unfold statusOf
  split
  · exact calm_ok _
  · exact calm_fail _

theorem calm_resolveDetails {details : Option Provider} (h : ∀ q ∈ details, q.Calm)
    (ctx : Context) : Resolution.Calm (resolveDetails ctx details) := by
  cases details with
  | none => exact calm_ok _
  | some p => exact calm_bind (Provider.calm_resolveAs _ (h p rfl) ctx) fun _ => calm_ok _

theorem calm_resolveData {data : Option Provider} (h : ∀ q ∈ data, q.Calm) (ctx : Context) :
    Resolution.Calm (resolveData ctx data) := by
  cases data with
  | none => exact calm_ok _
  | some p => exact calm_bind (Provider.calm_resolve ctx p (h p rfl)) fun _ => calm_ok _

theorem calm_validated (f : Fault) : Resolution.Calm (validated f) := by
  unfold validated
  split
  · exact calm_ok _
  · exact calm_fail _

theorem calm_resolve {p : FaultProvider} (h : p.Calm) (ctx : Context) :
    Resolution.Calm (p.resolve ctx) := by
  unfold resolve
  refine calm_bind (Provider.calm_resolveAs _ h.status ctx) fun _ => ?_
  refine calm_bind (calm_statusOf _) fun _ => ?_
  refine calm_bind (Provider.calm_resolveAs _ h.code ctx) fun _ => ?_
  refine calm_bind (Provider.calm_resolveAs _ h.title ctx) fun _ => ?_
  refine calm_bind (Provider.calm_resolveAs _ h.message ctx) fun _ => ?_
  refine calm_bind (calm_resolveDetails h.details ctx) fun _ => ?_
  exact calm_bind (calm_resolveData h.data ctx) fun _ => calm_validated _

end FaultProvider

end Providers

end ActionFlow
