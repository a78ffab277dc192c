import ActionFlow.Document.Size
import ActionFlow.Proofs.Closing

/-!
# Valid faults

A step is sound if the faults that it raises are valid and it keeps the faults valid that it finds
in what it owns.  The engine makes only valid faults, and one that comes from a definition is
checked when it is resolved.
-/
namespace ActionFlow

theorem FaultProvider.valid_of_resolve {p : FaultProvider} {ctx : Context} {fault : Fault}
    (h : p.resolve ctx = .ok fault) : fault.Valid := by
  simp only [resolve, bind_eq_ok_iff] at h
  obtain ⟨_, _, status, _, code, _, title, _, message, _, details, _, data, _, hvalidated⟩ := h
  obtain ⟨rfl, hvalid⟩ := validated_eq_ok_iff.mp hvalidated
  exact hvalid

/-- The faults that the handler raises by itself are valid. -/
def Handler.Sound (handler : Handler) : Prop :=
  ∀ c fault, (handler.handle c).result = .error (.fault fault) → fault.Valid

def Kind.Sound {α : Type} (kind : Kind α) : Prop := ∀ handler ∈ kind.handler?, handler.Sound

theorem Handler.Sound.valid {handler : Handler} (h : handler.Sound) (key : String) {c : Context}
    {e : HandlerError} (he : (handler.handle c).result = .error e) : (e.toFault key).Valid := by
  cases e with
  | fault fault => exact h c fault he
  | unexpected reason => exact Fault.valid_actionFailed key reason
  | panicked panic => exact Fault.valid_actionFailed key _

/-! ### Records -/

namespace Record

def FaultValid (r : Record) : Prop := ∀ fault ∈ r.fault, fault.Valid

/-- All faults in the record are valid, at every depth. -/
def Sound (r : Record) : Prop := ∀ x ∈ r.tree, x.FaultValid

def AllSound (records : Entries Record) : Prop := ∀ x ∈ forest records, x.FaultValid

theorem sound_iff {r : Record} :
    r.Sound ↔ r.FaultValid ∧ (∀ x ∈ detailForest r.detail, x.FaultValid) ∧
      AllSound r.errorActions := by
  unfold Sound AllSound
  rw [tree_eq, List.forall_mem_cons, List.forall_mem_append]

theorem allSound_nil : AllSound [] := by
  unfold AllSound
  rw [forest_nil]
  exact nofun

theorem AllSound.put {records : Entries Record} {r : Record} (h : AllSound records) (hr : r.Sound)
    (key : String) : AllSound (Entries.put records key r) := by
  intro x hx
  rcases mem_forest_put hx with hx | hx
  · exact h x hx
  · exact hr x hx

variable {r : Record}

theorem Sound.congr {r' : Record} (h : r.Sound) (hfault : r'.fault = r.fault)
    (hdetail : r'.detail = r.detail) (herrors : r'.errorActions = r.errorActions) : r'.Sound := by
  rw [sound_iff] at h ⊢
  unfold FaultValid at h ⊢
  rw [hfault, hdetail, herrors]
  exact h

theorem Sound.with_fault {r' : Record} (h : r.Sound) {fault : Fault} (hv : fault.Valid)
    (hfault : r'.fault = some fault) (hdetail : r'.detail = r.detail)
    (herrors : r'.errorActions = r.errorActions) : r'.Sound := by
  rw [sound_iff] at h ⊢
  refine ⟨?_, hdetail ▸ h.2.1, herrors ▸ h.2.2⟩
  intro f hf
  rw [hfault] at hf
  cases hf
  exact hv

theorem Sound.with_detail {detail : Detail Record} (h : r.Sound)
    (hdetail : ∀ x ∈ detailForest detail, x.FaultValid) :
    ({ r with detail := detail } : Record).Sound :=
  sound_iff.mpr ⟨(sound_iff.mp h).1, hdetail, (sound_iff.mp h).2.2⟩

theorem sound_fresh (a : Action) : a.freshRecord.Sound := by
  have hdetail : detailForest a.freshRecord.detail = [] := detailForest_detail a.kind
  refine sound_iff.mpr ⟨nofun, ?_, allSound_nil⟩
  rw [hdetail]
  exact nofun

theorem Sound.lost (h : r.Sound) {fault : Fault} (hv : fault.Valid) (now : String) :
    (r.lost now fault).Sound :=
  h.with_fault hv (fault_lost _ _ _) (detail_lost _ _ _) (errorActions_lost _ _ _)

theorem Sound.withErrorActions (h : r.Sound) {records : Entries Record} (hr : AllSound records) :
    ({ r with errorActions := records } : Record).Sound :=
  sound_iff.mpr ⟨(sound_iff.mp h).1, (sound_iff.mp h).2.1, hr⟩

theorem Sound.setChildren (h : r.Sound) {records : Entries Record} (hr : AllSound records) :
    (r.setChildren records).Sound := by
  unfold Record.setChildren
  split
  · apply h.with_detail
    rw [detailForest]
    exact hr
  · exact h

theorem Sound.setWrite (h : r.Sound) (write : Write) : (r.setWrite write).Sound := by
  unfold Record.setWrite
  split
  · apply h.with_detail
    simp [detailForest]
  · exact h

theorem Sound.setOutput (h : r.Sound) (output : Option Value) : (r.setOutput output).Sound := by
  unfold Record.setOutput
  split
  · apply h.with_detail
    simp [detailForest]
  · exact h

theorem Sound.updateIteration (h : r.Sound)
    {f : Progress → List (Iteration Record) → Progress × List (Iteration Record)}
    (hf : ∀ p iterations, (∀ x ∈ iterationForest iterations, x.FaultValid) →
      ∀ x ∈ iterationForest (f p iterations).2, x.FaultValid) : (r.updateIteration f).Sound := by
  have hdetail := (sound_iff.mp h).2.1
  have hnone : ∀ x ∈ iterationForest [], x.FaultValid := by simp [iterationForest]
  unfold Record.updateIteration
  apply h.with_detail
  rw [detailForest]
  split
  · next p iterations he =>
    rw [he, detailForest] at hdetail
    exact hf p iterations hdetail
  · exact hf {} [] hnone

theorem Sound.updateProgress (h : r.Sound) (f : Progress → Progress) :
    (r.updateProgress f).Sound := h.updateIteration fun _ _ hx => hx

theorem Sound.addIteration (h : r.Sound) (index : Nat) {records : Entries Record}
    (hr : AllSound records) : (r.addIteration ⟨index, records⟩).Sound := by
  apply h.updateIteration
  intro p iterations hx
  rw [iterationForest_concat, List.forall_mem_append]
  exact ⟨hx, hr⟩

end Record

/-! ### Steps -/

/-- The fault, if there is one, is valid. -/
def Caught {α : Type} (result : Except Fault α) : Prop :=
  ∀ fault, result = .error fault → fault.Valid

/-- The step keeps the condition on what it owns, gives results in `post`, and raises only valid
faults. -/
def Step.Sound {ρ α : Type} (J : ρ → Prop) (m : Step (Frame ρ) α) (post : α → Prop) : Prop :=
  ∀ s, J s.own → J (m s).state.own ∧ (∀ a, (m s).result = .ok a → post a) ∧
    ∀ fault, (m s).result = .error (.error fault) → fault.Valid

def Unchecked {α : Type} (_ : α) : Prop := True

namespace Step

variable {ρ α β : Type} {J : ρ → Prop} {m : Step (Frame ρ) α} {mid : α → Prop} {post : β → Prop}

theorem sound_pure {a : α} {post : α → Prop} (h : post a) :
    Sound J (pure a : Step (Frame ρ) α) post := by
  intro s hs
  refine ⟨hs, ?_, nofun⟩
  rintro _ ⟨⟩
  exact h

theorem sound_fail {fault : Fault} {post : α → Prop} (h : fault.Valid) :
    Sound J (fail fault : Step (Frame ρ) α) post := by
  intro s hs
  refine ⟨hs, nofun, ?_⟩
  rintro _ ⟨⟩
  exact h

theorem sound_ofExcept {result : Except Fault α} (h : Caught result) :
    Sound J (ofExcept result : Step (Frame ρ) α) Unchecked := by
  intro s hs
  refine ⟨hs, fun _ _ => trivial, ?_⟩
  cases result with
  | ok a => exact nofun
  | error fault =>
    rintro _ ⟨⟩
    exact h fault rfl

theorem sound_bind {next : α → Step (Frame ρ) β} (hm : Sound J m mid)
    (hnext : ∀ a, mid a → Sound J (next a) post) : Sound J (m >>= next) post := by
  intro s hs
  obtain ⟨hown, hok, hfault⟩ := hm s hs
  cases hr : (m s).result with
  | ok a =>
    rw [bind_of_ok hr]
    exact hnext a (hok a hr) _ hown
  | error stop =>
    rw [bind_of_error hr]
    refine ⟨hown, nofun, ?_⟩
    rintro fault ⟨⟩
    exact hfault fault hr

theorem sound_attempt (hm : Sound J m mid) : Sound J m.attempt Caught := by
  intro s hs
  obtain ⟨hown, hok, hfault⟩ := hm s hs
  cases hr : (m s).result with
  | ok a =>
    simp only [attempt, hr]
    refine ⟨hown, ?_, ?_⟩
    · rintro _ ⟨⟩ _ ⟨⟩
    · rintro _ ⟨⟩
  | error stop =>
    cases stop with
    | panic panic =>
      simp only [attempt, hr]
      refine ⟨hown, ?_, ?_⟩ <;> rintro _ ⟨⟩
    | error fault =>
      simp only [attempt, hr]
      refine ⟨hown, ?_, ?_⟩
      · rintro _ ⟨⟩ _ ⟨⟩
        exact hfault fault hr
      · rintro _ ⟨⟩

end Step

open Step

namespace Frame

variable {ρ τ α : Type} {J : ρ → Prop} {I : τ → Prop}

theorem sound_modify {f : ρ → ρ} (h : ∀ own, J own → J (f own)) :
    Step.Sound J (modify f) Unchecked := fun s hs => ⟨h s.own hs, fun _ _ => trivial, nofun⟩

theorem sound_mark (key : String) (event : Event) :
    Step.Sound J (mark key event : Step (Frame ρ) Unit) Unchecked :=
  fun _ hs => ⟨hs, fun _ _ => trivial, nofun⟩

/-- Errors of providers become valid faults. -/
theorem sound_resolve (key : String) {p : Context → Resolution α} {post : α → Prop}
    (h : ∀ ctx a, p ctx = .ok a → post a) : Step.Sound J (resolve key p) post := by
  intro s hs
  refine ⟨hs, ?_, ?_⟩
  · intro a ha
    unfold resolve at ha
    cases hp : p s.context with
    | ok b =>
      simp only [hp, Except.ok.injEq] at ha
      exact ha ▸ h _ b hp
    | error stop => cases stop <;> simp [hp] at ha
  · intro fault hf
    unfold resolve at hf
    cases hp : p s.context with
    | ok b => simp [hp] at hf
    | error stop =>
      cases stop with
      | panic panic => simp [hp] at hf
      | error e =>
        simp only [hp, Except.error.injEq, Stop.error.injEq] at hf
        exact hf ▸ e.valid_toFault

theorem sound_resolve_any (key : String) (p : Context → Resolution α) :
    Step.Sound J (resolve key p) Unchecked := sound_resolve key fun _ _ _ => trivial

theorem sound_resolveFault (key : String) (p : FaultProvider) :
    Step.Sound J (resolve key p.resolve) Fault.Valid :=
  sound_resolve key fun _ _ => FaultProvider.valid_of_resolve

theorem sound_resolveOptional {π : Type} (key : String) (p : Option π)
    (f : π → Context → Resolution α) : Step.Sound J (resolveOptional key p f) Unchecked := by
  cases p with
  | none => exact sound_pure trivial
  | some q => exact sound_bind (sound_resolve_any key _) fun a _ => sound_pure trivial

theorem sound_ensureNotCancelled (key : String) :
    Step.Sound J (ensureNotCancelled key : Step (Frame ρ) Unit) Unchecked := by
  intro s hs
  refine ⟨hs, fun _ _ => trivial, ?_⟩
  intro fault hf
  have hresult : (s.context.ensureNotCancelled key).mapError Stop.error =
      .error (.error fault) := hf
  unfold Context.ensureNotCancelled at hresult
  split at hresult
  · cases hresult
    exact Fault.valid_actionCancelled key
  · cases hresult

theorem sound_nested {own : τ} {part : Step (Frame τ) Unit} (hown : I own)
    (h : Step.Sound I part Unchecked) :
    Step.Sound J (nested own part : Step (Frame ρ) (τ × Except Fault Unit))
      fun left => I left.1 ∧ Caught left.2 := by
  intro s hs
  obtain ⟨hleft, -, hfault⟩ := h ⟨own, s.context⟩ hown
  cases hr : (part ⟨own, s.context⟩).result with
  | ok u =>
    simp only [nested, hr]
    refine ⟨hs, ?_, ?_⟩
    · rintro _ ⟨⟩
      refine ⟨hleft, ?_⟩
      rintro _ ⟨⟩
    · rintro _ ⟨⟩
  | error stop =>
    cases stop with
    | panic panic =>
      simp only [nested, hr]
      refine ⟨hs, ?_, ?_⟩ <;> rintro _ ⟨⟩
    | error fault =>
      simp only [nested, hr]
      refine ⟨hs, ?_, ?_⟩
      · rintro _ ⟨⟩
        refine ⟨hleft, ?_⟩
        rintro _ ⟨⟩
        exact hfault fault hr
      · rintro _ ⟨⟩

theorem sound_within (place : Place) {part : Step (Frame ρ) α} {post : α → Prop}
    (h : Step.Sound J part post) : Step.Sound J (within place part) post := fun s hs => h s hs

theorem sound_file (place : Place) {own : τ} {part : Step (Frame τ) Unit} {f : τ → ρ → ρ}
    (hown : I own) (h : Step.Sound I part Unchecked)
    (hf : ∀ left own, I left → J own → J (f left own)) :
    Step.Sound J (file place own part f) Unchecked := by
  refine sound_bind (sound_within place (sound_nested hown h)) fun left hleft => ?_
  refine sound_bind (sound_modify fun own hs => hf left.1 own hleft.1 hs) fun _ _ => ?_
  exact sound_ofExcept hleft.2

theorem sound_move (target : Stage) : Step.Sound Record.Sound (move target) Unchecked := by
  intro s hs
  unfold move
  cases hcan : s.own.stage.canMove target with
  | true =>
    rw [Record.transition_of_canMove hcan]
    refine ⟨hs.congr ?_ ?_ ?_, fun _ _ => trivial, nofun⟩
    all_goals cases target <;> rfl
  | false =>
    rw [Record.transition_of_not_canMove hcan]
    refine ⟨hs, nofun, ?_⟩
    rintro _ ⟨⟩
    exact Fault.valid_invalidTransition _ _

theorem sound_succeed : Step.Sound Record.Sound succeed Unchecked :=
  sound_modify fun _ hs => hs.congr rfl rfl rfl

theorem sound_close {fault : Fault} (h : fault.Valid) :
    Step.Sound Record.Sound (close fault) Unchecked := fun _ hs =>
  ⟨hs.lost h _, fun _ _ => trivial, nofun⟩

theorem sound_publish (key : String) : Step.Sound Record.Sound (publish key) Unchecked :=
  fun _ hs => ⟨hs, fun _ _ => trivial, nofun⟩

theorem sound_thenPublish (key : String) {step : Step (Frame Record) Unit}
    (h : Step.Sound Record.Sound step Unchecked) :
    Step.Sound Record.Sound (thenPublish key step) Unchecked := by
  refine sound_bind (sound_attempt h) fun result hresult => ?_
  exact sound_bind (sound_publish key) fun _ _ => sound_ofExcept hresult

end Frame

end ActionFlow
