import ActionFlow.Definition.Size

/-!
# What readers keep

A property of what is read follows from what each field keeps.  For actions the induction goes
through the fields, the error actions among them, and is done here once.
-/
namespace ActionFlow

namespace Draft

theorem require_eq_ok_iff {α : Type} {slot : Option α} {name : String} {a : α} :
    require slot name = .ok a ↔ slot = some a := by
  cases slot <;> simp [require]

theorem readPlace_eq_ok {α : Type} {index : Nat} {expected : String}
    {read : Draft → Except ReadError α} {next : Option Draft} {a : α}
    (h : readPlace index expected read next = .ok a) : ∃ d, read d = .ok a := by
  cases next with
  | none => cases h
  | some d => exact ⟨d, h⟩

theorem nextItem_keeps {D : Draft → Prop} {items rest : List Draft} {stop : Option Break}
    {next : Option Draft} (hitems : ∀ d ∈ items, D d)
    (h : nextItem items stop = .ok (next, rest)) : (∀ d ∈ next, D d) ∧ ∀ d ∈ rest, D d := by
  cases items with
  | nil =>
    obtain ⟨_, _, he⟩ := map_eq_ok_iff.mp h
    cases he
    exact ⟨nofun, nofun⟩
  | cons d others =>
    cases h
    obtain ⟨hfirst, hrest⟩ := List.forall_mem_cons.mp hitems
    refine ⟨?_, hrest⟩
    rintro _ ⟨⟩
    exact hfirst

/-- What every field keeps is kept by all of them. -/
theorem readFields_keeps {σ : Type} {Inv : σ → Prop} {D : Draft → Prop}
    {step : σ → String → Draft → Except ReadError σ}
    (keeps : ∀ s name d q, D d → Inv s → step s name d = .ok q → Inv q)
    {fields : List (Draft × Draft)} (hfields : ∀ field ∈ fields, D field.2) {s q : σ} (hs : Inv s)
    (h : readFields step s fields = .ok q) : Inv q := by
  induction fields generalizing s with
  | nil =>
    cases h
    exact hs
  | cons field rest ih =>
    obtain ⟨key, d⟩ := field
    simp only [readFields, bind_eq_ok_iff] at h
    obtain ⟨name, _, next, hnext, hrest⟩ := h
    have hd := hfields (key, d) List.mem_cons_self
    have hinv := keeps s name d next hd hs hnext
    exact ih (fun f hf => hfields f (List.mem_cons_of_mem _ hf)) hinv hrest

theorem forall_mem_readItems {α : Type} {P : α → Prop} {read : Draft → Except ReadError α}
    (hread : ∀ d a, read d = .ok a → P a) {items : List Draft} {values : List α}
    (h : readItems read items = .ok values) : ∀ a ∈ values, P a := by
  induction items generalizing values with
  | nil =>
    cases h
    exact nofun
  | cons d rest ih =>
    simp only [readItems, bind_eq_ok_iff, Except.ok.injEq] at h
    obtain ⟨value, hd, values, hr, rfl⟩ := h
    exact List.forall_mem_cons.mpr ⟨hread d value hd, ih hr⟩

theorem forall_mem_readList {α : Type} {P : α → Prop} {origin : Origin}
    {read : Origin → Draft → Except ReadError α}
    (hread : ∀ inner d a, read inner d = .ok a → P a) {d : Draft} {values : List α}
    (h : d.readList origin read = .ok values) : ∀ a ∈ values, P a := by
  cases d with
  | array items stop =>
    simp only [readList, bind_eq_ok_iff, Except.ok.injEq] at h
    obtain ⟨inner, _, values, hv, _, _, rfl⟩ := h
    exact forall_mem_readItems (hread inner) hv
  | plain s =>
    simp only [readList] at h
    split at h
    · cases h
      rintro _ ⟨⟩
    · cases h
  | null | bool | number | text | object | broken => cases h

theorem forall_mem_readOptional {α : Type} {P : α → Prop} {read : Draft → Except ReadError α}
    (hread : ∀ d a, read d = .ok a → P a) {d : Draft} {value : Option α}
    (h : d.readOptional read = .ok value) : ∀ a ∈ value, P a := by
  have hsome : ∀ d, (read d).map some = .ok value → ∀ a ∈ value, P a := by
    intro d hd
    obtain ⟨a, ha, rfl⟩ := map_eq_ok_iff.mp hd
    rintro _ ⟨⟩
    exact hread d a ha
  cases d with
  | null =>
    cases h
    exact nofun
  | plain s =>
    simp only [readOptional] at h
    split at h
    · cases h
      exact nofun
    · exact hsome _ h
  | bool | number | text | array | object | broken => exact hsome _ h

end Draft

/-- What is to be shown so that every action read from drafts of a kind has a property: the kind
goes down to the parts of a draft, and an invariant of what was read so far leads to the
property. -/
structure ReadingRule (D : Draft → Prop) (Inv : ActionDefinition.Partial → Prop)
    (P : ActionDefinition → Prop) : Prop where
  items : ∀ {items stop}, D (.array items stop) → ∀ d ∈ items, D d
  fields : ∀ {fields stop}, D (.object fields stop) → ∀ field ∈ fields, D field.2
  start : Inv {}
  field : ∀ {origin p q name d}, name ≠ "errorActions" → D d → Inv p →
    ActionDefinition.readField origin p name d = .ok q → Inv q
  recovery : ∀ {p actions}, Inv p → (∀ a ∈ actions, P a) →
    Inv { p with errorActions := some actions }
  done : ∀ {p a}, Inv p → ActionDefinition.ofPartial p = .ok a → P a

namespace ReadingRule

variable {D : Draft → Prop} {Inv : ActionDefinition.Partial → Prop} {P : ActionDefinition → Prop}

open ActionDefinition

mutual
theorem read (rule : ReadingRule D Inv P) {origin : Origin} {d : Draft} {a : ActionDefinition}
    (hd : D d) (h : ActionDefinition.read origin d = .ok a) : P a := by
  match d with
  | .object fields stop =>
    simp only [ActionDefinition.read, bind_eq_ok_iff] at h
    obtain ⟨inner, _, p, hp, _, _, ho⟩ := h
    exact rule.done (rule.readFields (rule.fields hd) rule.start hp) ho
  | .null | .bool _ | .number _ | .text _ | .plain _ | .array _ _ | .broken _ =>
    simp only [ActionDefinition.read] at h
    cases h

theorem readFields (rule : ReadingRule D Inv P) {origin : Origin} {p q : Partial}
    {fields : List (Draft × Draft)} (hfields : ∀ field ∈ fields, D field.2) (hp : Inv p)
    (h : ActionDefinition.readFields origin p fields = .ok q) : Inv q := by
  match fields with
  | [] =>
    simp only [ActionDefinition.readFields, Except.ok.injEq] at h
    exact h ▸ hp
  | (key, d) :: rest =>
    simp only [ActionDefinition.readFields, bind_eq_ok_iff] at h
    obtain ⟨name, _, h⟩ := h
    have hd : D d := hfields (key, d) List.mem_cons_self
    have hrest : ∀ field ∈ rest, D field.2 := fun f hf => hfields f (List.mem_cons_of_mem _ hf)
    split at h
    · simp only [bind_eq_ok_iff] at h
      obtain ⟨slot, ho, hr⟩ := h
      obtain ⟨actions, ha, rfl⟩ := once_eq_ok ho
      exact rule.readFields hrest (rule.recovery hp (rule.readList hd ha)) hr
    · rename_i hname
      simp only [bind_eq_ok_iff] at h
      obtain ⟨next, hf, hr⟩ := h
      exact rule.readFields hrest (rule.field hname hd hp hf) hr

theorem readList (rule : ReadingRule D Inv P) {origin : Origin} {d : Draft}
    {actions : List ActionDefinition} (hd : D d)
    (h : ActionDefinition.readList origin d = .ok actions) : ∀ a ∈ actions, P a := by
  match d with
  | .array items stop =>
    simp only [ActionDefinition.readList, bind_eq_ok_iff, Except.ok.injEq] at h
    obtain ⟨inner, _, values, hv, _, _, rfl⟩ := h
    exact rule.readItems (rule.items hd) hv
  | .plain s =>
    simp only [ActionDefinition.readList] at h
    split at h
    · cases h
      exact nofun
    · cases h
  | .null | .bool _ | .number _ | .text _ | .object _ _ | .broken _ =>
    simp only [ActionDefinition.readList] at h
    cases h

theorem readItems (rule : ReadingRule D Inv P) {origin : Origin} {items : List Draft}
    {actions : List ActionDefinition} (hitems : ∀ d ∈ items, D d)
    (h : ActionDefinition.readItems origin items = .ok actions) : ∀ a ∈ actions, P a := by
  match items with
  | [] =>
    simp only [ActionDefinition.readItems, Except.ok.injEq] at h
    subst h
    exact nofun
  | d :: rest =>
    simp only [ActionDefinition.readItems, bind_eq_ok_iff, Except.ok.injEq] at h
    obtain ⟨action, hd, actions, hr, rfl⟩ := h
    obtain ⟨hfirst, hrest⟩ := List.forall_mem_cons.mp hitems
    exact List.forall_mem_cons.mpr ⟨rule.read hfirst hd, rule.readItems hrest hr⟩
end

theorem definitionField (rule : ReadingRule D Inv P) {origin : Origin} {p q : Definition.Partial}
    {name : String} {d : Draft} (hd : D d) (h : ∀ a ∈ p.actions.getD [], P a)
    (hq : Definition.readField origin p name d = .ok q) : ∀ a ∈ q.actions.getD [], P a := by
  simp only [Definition.readField] at hq
  split at hq <;> simp only [bind_eq_ok_iff, Except.ok.injEq] at hq
  case h_3 =>
    obtain ⟨slot, hslot, rfl⟩ := hq
    obtain ⟨actions, hactions, rfl⟩ := once_eq_ok hslot
    exact rule.readList hd hactions
  all_goals
    obtain ⟨_, _, rfl⟩ := hq
    exact h

/-- Every action of a definition has the property, whichever form the definition is read from. -/
theorem definition (rule : ReadingRule D Inv P) {origin : Origin} {d : Draft}
    {definition : Definition} (hd : D d) (h : Definition.read origin d = .ok definition) :
    ∀ a ∈ definition.actions, P a := by
  cases d with
  | object fields stop =>
    simp only [Definition.read, bind_eq_ok_iff] at h
    obtain ⟨inner, _, p, hp, _, _, ho⟩ := h
    simp only [Definition.ofPartial, bind_eq_ok_iff, Except.ok.injEq] at ho
    obtain ⟨_, _, rfl⟩ := ho
    have hstart : ∀ a ∈ (none : Option (List ActionDefinition)).getD [], P a := nofun
    exact Draft.readFields_keeps (fun _ _ _ _ hd hs hq => rule.definitionField hd hs hq)
      (rule.fields hd) hstart hp
  | array items stop =>
    simp only [Definition.read, bind_eq_ok_iff] at h
    obtain ⟨inner, _, ⟨next, rest⟩, hnext, name, _, ⟨next', rest'⟩, hnext', h⟩ := h
    have hrest := (Draft.nextItem_keeps (rule.items hd) hnext).2
    have hrest' := (Draft.nextItem_keeps hrest hnext').2
    cases next' with
    | none | some _ =>
      simp only [bind_eq_ok_iff] at h
      obtain ⟨description, _, ⟨next'', rest''⟩, hnext'', h⟩ := h
      have hlast := (Draft.nextItem_keeps hrest' hnext'').1
      cases next'' with
      | none =>
        simp only [bind_eq_ok_iff, Except.ok.injEq] at h
        obtain ⟨_, rfl, _, _, rfl⟩ := h
        exact nofun
      | some d =>
        simp only [bind_eq_ok_iff, Except.ok.injEq] at h
        obtain ⟨actions, hactions, _, _, rfl⟩ := h
        exact rule.readList (hlast d rfl) hactions
  | null | bool | number | text | plain | broken => cases h

end ReadingRule

end ActionFlow
