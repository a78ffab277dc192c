import ActionFlow.Proofs.Forms

/-!
# Conditions and integers read directly

A condition is read directly where a truth value is needed, and a count where an integer is.  The
detour by way of a value, which is then converted, fails on the same configurations with the same
error, and what it reads resolves to the same in every context.
-/
namespace ActionFlow

/-- Both fail with the same error, or both succeed with results that are related. -/
inductive Agree {ε α β : Type} (R : α → β → Prop) : Except ε α → Except ε β → Prop
  | failed (e : ε) : Agree R (.error e) (.error e)
  | succeeded {a : α} {b : β} (related : R a b) : Agree R (.ok a) (.ok b)

section Agree

variable {ε α β γ : Type} {R : α → β → Prop}

theorem agree_map_map {f : γ → α} {g : γ → β} (h : ∀ c, R (f c) (g c)) (x : Except ε γ) :
    Agree R (x.map f) (x.map g) := by
  cases x with
  | error e => exact .failed e
  | ok c => exact .succeeded (h c)

theorem agree_map_left {f : β → α} (h : ∀ b, R (f b) b) (x : Except ε β) :
    Agree R (x.map f) x := by
  have hx := agree_map_map (g := id) h x
  rwa [Except.map_id] at hx

theorem agree_map_right {g : α → β} (h : ∀ a, R a (g a)) (x : Except ε α) :
    Agree R x (x.map g) := by
  have hx := agree_map_map (f := id) h x
  rwa [Except.map_id] at hx

theorem Agree.exists_of_ok {a : α} {y : Except ε β} (h : Agree R (.ok a) y) :
    ∃ b, y = .ok b ∧ R a b := by
  cases h with
  | succeeded related => exact ⟨_, rfl, related⟩

end Agree

/-! ### Conversions of what a condition and a count give -/

theorem Condition.resolve_typed (p : Provider) (ctx : Context) :
    (Condition.typed p).resolve ctx = p.resolveAs Conversion.boolean ctx := by
  rw [Condition.resolve, Provider.resolveAs]

theorem Provider.resolveAs_condition (c : Condition) (ctx : Context) :
    (Provider.condition c).resolveAs Conversion.boolean ctx = c.resolve ctx := by
  rw [Provider.resolveAs, Provider.resolve]
  cases c.resolve ctx <;> rfl

theorem IntegerProvider.resolve_typed (p : Provider) (ctx : Context) :
    (IntegerProvider.typed p).resolve ctx = p.resolveAs Conversion.integer ctx := rfl

theorem Provider.resolve_count (list : Provider) (ctx : Context) :
    (Provider.count list).resolve ctx =
      ((IntegerProvider.count list).resolve ctx).map Value.integer := by
  rw [Provider.resolve, IntegerProvider.resolve, Provider.resolveAs]
  cases list.resolve ctx with
  | error stop => rfl
  | ok v =>
    show (Conversion.list.apply v >>= fun items =>
        countOf items >>= fun count => .ok (.integer count)) =
      (Conversion.list.apply v >>= countOf).map Value.integer
    cases Conversion.list.apply v with
    | error stop => rfl
    | ok items =>
      show (countOf items >>= fun count => .ok (.integer count)) =
        (countOf items).map Value.integer
      cases countOf items <;> rfl

/-- A count that is counted at all has 64 bits, so that the conversion of its value keeps it. -/
theorem apply_integer_of_count {list : Provider} {ctx : Context} {count : Int}
    (h : (IntegerProvider.count list).resolve ctx = .ok count) :
    Conversion.integer.apply (.integer count) = .ok count := by
  obtain ⟨items, -, hcount⟩ := bind_eq_ok_iff.mp h
  unfold countOf at hcount
  split at hcount
  · next bounded =>
    cases hcount
    have hinteger : Conversion.integer.convert? (.integer items.length) = some ↑items.length :=
      if_pos bounded
    rw [Conversion.apply, hinteger]
  · cases hcount

theorem Provider.resolveAs_count (list : Provider) (ctx : Context) :
    (Provider.count list).resolveAs Conversion.integer ctx =
      (IntegerProvider.count list).resolve ctx := by
  rw [Provider.resolveAs, Provider.resolve_count]
  cases h : (IntegerProvider.count list).resolve ctx with
  | error stop => rfl
  | ok count => exact apply_integer_of_count h

/-! ### Readings -/

theorem Condition.ofJson_agrees (config : Json) :
    Agree (fun c p => ∀ ctx, c.resolve ctx = p.resolveAs Conversion.boolean ctx)
      (Condition.ofJson config) (Provider.ofJson config) := by
  rcases Form.literal_or_invokes config with free | ⟨form, args, call⟩
  · rw [Condition.ofJson_of_literal free]
    exact agree_map_left (fun p ctx => Condition.resolve_typed p ctx) _
  · rw [Condition.ofJson_of_invokes call, Provider.ofJson_of_invokes call]
    cases kind : form.isCondition with
    | false =>
      rw [Condition.ofCall_of_not_isCondition kind]
      exact agree_map_left (fun p ctx => Condition.resolve_typed p ctx) _
    | true =>
      rw [Provider.ofCall_of_isCondition kind]
      exact agree_map_right (fun c ctx => (Provider.resolveAs_condition c ctx).symm) _

theorem IntegerProvider.ofJson_agrees (config : Json) :
    Agree (fun i p => ∀ ctx, i.resolve ctx = p.resolveAs Conversion.integer ctx)
      (IntegerProvider.ofJson config) (Provider.ofJson config) := by
  unfold IntegerProvider.ofJson
  split
  · next args smaller hcall =>
    rw [Provider.ofJson_of_invokes ⟨smaller, hcall⟩, Provider.ofCall]
    exact agree_map_map (fun list ctx => (Provider.resolveAs_count list ctx).symm) _
  · exact agree_map_left (fun p ctx => IntegerProvider.resolve_typed p ctx) _

/-- A condition and an integer that are read directly are those of the value that is read and then
converted: the same configurations are refused, with the same error, and every context gives the
same result. -/
theorem direct_readings_agree (config : Json) :
    Agree (fun c p => ∀ ctx, c.resolve ctx = p.resolveAs Conversion.boolean ctx)
        (Condition.ofJson config) (Provider.ofJson config) ∧
      Agree (fun i p => ∀ ctx, i.resolve ctx = p.resolveAs Conversion.integer ctx)
        (IntegerProvider.ofJson config) (Provider.ofJson config) :=
  ⟨Condition.ofJson_agrees config, IntegerProvider.ofJson_agrees config⟩

end ActionFlow
