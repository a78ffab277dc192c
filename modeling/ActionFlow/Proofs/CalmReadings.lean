import ActionFlow.Proofs.CalmProviders
import ActionFlow.Proofs.Forms

/-!
# Providers that are read

Only the surroundings of a run can supply a provider that panics.  A provider, a condition or a
fault that is read from its written form is calm.
-/
namespace ActionFlow

section Parts

variable {items : List Json} {fields : Entries Json}

theorem Provider.calmItems_of_forall₂ {providers : List Provider}
    (h : List.Forall₂ (fun _ p => p.Calm) items providers) : Provider.CalmItems providers := by
  induction h with
  | nil =>
    rw [Provider.CalmItems]
    trivial
  | cons first _ ih =>
    rw [Provider.CalmItems]
    exact ⟨first, ih⟩

theorem Provider.calmProperties_of_forall₂ {properties : Entries Provider}
    (h : List.Forall₂ (fun field property => property.1 = field.1 ∧ property.2.Calm) fields
      properties) : Provider.CalmProperties properties := by
  induction h with
  | nil =>
    rw [Provider.CalmProperties]
    trivial
  | cons first _ ih =>
    rw [Provider.CalmProperties]
    exact ⟨first.2, ih⟩

theorem Condition.calmItems_of_forall₂ {conditions : List Condition}
    (h : List.Forall₂ (fun _ c => c.Calm) items conditions) : Condition.CalmItems conditions := by
  induction h with
  | nil =>
    rw [Condition.CalmItems]
    trivial
  | cons first _ ih =>
    rw [Condition.CalmItems]
    exact ⟨first, ih⟩

end Parts

theorem Provider.calm_of_written {config : Json} {p : Provider}
    (h : Provider.Written (fun _ p => p.Calm) (fun _ c => c.Calm) config p) : p.Calm := by
  rw [Provider.Calm.eq_def]
  cases h with
  | literal _ | constant _ => trivial
  | lookup _ made =>
    obtain ⟨path, default, rfl⟩ := Form.exists_of_lookupOf made
    trivial
  | list _ each => exact Provider.calmItems_of_forall₂ each
  | object _ each => exact Provider.calmProperties_of_forall₂ each
  | file _ nameArg contentArg =>
    obtain ⟨_, -, hname⟩ := nameArg
    obtain ⟨_, -, hcontent⟩ := contentArg
    exact ⟨hname, hcontent⟩
  | count _ part => exact part
  | condition same => exact same

theorem Condition.calm_of_written {config : Json} {c : Condition}
    (h : Condition.Written (fun _ p => p.Calm) (fun _ c => c.Calm) config c) : c.Calm := by
  rw [Condition.Calm.eq_def]
  cases h with
  | typed same => exact same
  | present _ => trivial
  | all _ each | any _ each => exact Condition.calmItems_of_forall₂ each
  | negation _ part => exact part
  | text _ leftArg rightArg _ | equal _ leftArg rightArg | compare _ leftArg rightArg =>
    obtain ⟨_, -, hleft⟩ := leftArg
    obtain ⟨_, -, hright⟩ := rightArg
    exact ⟨hleft, hright⟩

theorem calm_relates (config : Json) : Relates (fun _ p => p.Calm) (fun _ c => c.Calm) config :=
  relates_of_written (fun _ _ => Provider.calm_of_written)
    (fun _ _ => Condition.calm_of_written) config

theorem Provider.calm_ofJson {config : Json} {p : Provider} (h : ofJson config = .ok p) :
    p.Calm :=
  (calm_relates config).value p h

theorem Condition.calm_ofJson {config : Json} {c : Condition} (h : ofJson config = .ok c) :
    c.Calm :=
  (calm_relates config).condition c h

theorem IntegerProvider.calm_ofJson {config : Json} {p : IntegerProvider}
    (h : ofJson config = .ok p) : p.Calm := by
  unfold ofJson at h
  split at h
  all_goals
    obtain ⟨provider, hprovider, rfl⟩ := map_eq_ok_iff.mp h
    exact Provider.calm_ofJson hprovider

theorem FaultProvider.calm_ofJson {config : Json} {f : FaultProvider} (h : ofJson config = .ok f) :
    f.Calm := by
  obtain ⟨fields, -, written⟩ :=
    written_of_ofJson (P := fun _ p => p.Calm) (fun _ _ => Provider.calm_ofJson) h
  have calm_argument {key : String} {p : Provider}
      (arg : Form.Argument (fun _ p => p.Calm) fields key p) : p.Calm := by
    obtain ⟨_, -, hp⟩ := arg
    exact hp
  exact
    { code := calm_argument written.code
      title := calm_argument written.title
      message := calm_argument written.message
      status := calm_argument written.status
      details := fun p hp => calm_argument (written.details p hp)
      data := fun p hp => calm_argument (written.data p hp) }

end ActionFlow
