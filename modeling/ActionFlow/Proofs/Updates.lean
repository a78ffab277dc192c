import ActionFlow.Proofs.Assignments
import ActionFlow.Proofs.InPlace

/-!
# Laws of updates

What a write that goes through does to the variables: it can be read back, it changes nothing that
lies apart from its target, it adds keys only behind those that an object has, and a later write to
the same target takes its place as if it had never been made.
-/
namespace ActionFlow

namespace Entries

variable {fields fields' inner : Entries Value} {segment property : String}
  {path rest : List String} {value w : Value}

/-! ### Keys on the way -/

/-- What a path finds beneath a segment, it finds in the fields that a write there goes on in. -/
theorem lookup_inside (hi : inside fields segment = .ok inner)
    (h : (Value.object fields).lookup (segment :: rest) = some w) :
    (Value.object inner).lookup rest = some w := by
  unfold inside at hi
  split at hi
  · next he =>
    rw [lookup_cons_of_absent he] at h
    cases h
  · next he =>
    cases hi
    rwa [lookup_cons_of_find? he] at h
  · cases hi

/-- Every object on the way of a write stays an object, or is made one, and keeps its keys in front
of the new one. -/
theorem keys_prefix_writeAt (h : writeAt fields path property value = .ok fields')
    {s : List String} (hs : s <+: path) :
    ∃ after, (Value.object fields').lookup s = some (.object after) ∧
      ∀ before, (Value.object fields).lookup s = some (.object before) →
        keys before <+: keys after := by
  induction path generalizing fields fields' s with
  | nil =>
    have hnil : s = [] := List.prefix_nil.mp hs
    subst hnil
    rw [writeAt_nil] at h
    cases h
    refine ⟨_, Value.lookup_nil _, fun before hb => ?_⟩
    rw [Value.lookup_nil] at hb
    cases hb
    exact keys_prefix_put fields property value
  | cons segment rest ih =>
    obtain ⟨inner, inner', hi, hw, rfl⟩ := writeAt_cons_eq_ok h
    cases s with
    | nil =>
      refine ⟨_, Value.lookup_nil _, fun before hb => ?_⟩
      rw [Value.lookup_nil] at hb
      cases hb
      exact keys_prefix_put fields segment _
    | cons first s =>
      obtain ⟨rfl, hrest⟩ := List.cons_prefix_cons.mp hs
      obtain ⟨after, hafter, hkeys⟩ := ih hw hrest
      refine ⟨after, ?_, fun before hb => hkeys before (lookup_inside hi hb)⟩
      rw [lookup_put_object, hafter]

/-! ### One write after another -/

/-- A second write to the target of the first goes through as it would have without the first. -/
theorem writeAt_writeAt (h : writeAt fields path property value = .ok fields') (second : Value) :
    ∃ last, writeAt fields' path property second = .ok last ∧
      writeAt fields path property second = .ok last := by
  induction path generalizing fields fields' with
  | nil =>
    rw [writeAt_nil] at h
    cases h
    rw [writeAt_nil, writeAt_nil, put_put]
    exact ⟨_, rfl, rfl⟩
  | cons segment rest ih =>
    obtain ⟨inner, inner', hi, hw, rfl⟩ := writeAt_cons_eq_ok h
    obtain ⟨last, hlast, honly⟩ := ih hw
    refine ⟨put fields segment (.object last), ?_, writeAt_of_inside_ok hi honly⟩
    rw [writeAt_of_inside_ok (inside_put_self fields inner' segment) hlast, put_put]

end Entries

namespace Context

/-- Nothing outside of the variables looks different when they do. -/
theorem lookup_with_vars (c : Context) (vars : Entries Value) {first : String}
    {rest : List String} (h : first ≠ "variables") :
    ({ c with vars := vars } : Context).lookup ⟨first :: rest⟩ = c.lookup ⟨first :: rest⟩ := by
  simp only [lookup, Path.splitFirst?, h, if_false]

/-- Only what lies on the way to the variable or beneath it can look different after a write. -/
theorem lookup_setVariable_of_apart {c c' : Context} {property : String} {path : Option Path}
    {value : Value} (h : c.setVariable property path value = .ok c') {p : Path}
    (hp : Entries.Apart ("variables" :: ((path.map Path.segments).getD [] ++ [property]))
      p.segments) : c'.lookup p = c.lookup p := by
  obtain ⟨vars, hw, rfl⟩ := setVariable_eq_ok_iff.mp h
  obtain ⟨segments⟩ := p
  cases segments with
  | nil => exact absurd List.nil_prefix hp.2
  | cons first rest =>
    by_cases hfirst : first = "variables"
    · subst hfirst
      rw [lookup_variables, lookup_variables]
      exact Entries.lookup_writeAt_of_apart hw (Entries.apart_cons_iff.mp hp)
    · exact lookup_with_vars c vars hfirst

/-- The laws of a write that goes through: the value is read back, at every depth; what lies apart
is found as before; the objects on the way keep their keys in front; and writing the same variable
again comes to the same as writing it once. -/
theorem setVariable_lawful {c c' : Context} {property : String} {path : Option Path}
    {value : Value} (h : c.setVariable property path value = .ok c') :
    let way := (path.map Path.segments).getD []
    let target := way ++ [property]
    (∀ q, c'.lookup ⟨"variables" :: (target ++ q)⟩ = value.lookup q) ∧
    (∀ p : Path, ¬ p.segments <+: "variables" :: target → ¬ "variables" :: target <+: p.segments →
      c'.lookup p = c.lookup p) ∧
    (∀ s, s <+: way → ∃ after, c'.lookup ⟨"variables" :: s⟩ = some (.object after) ∧
      ∀ before, c.lookup ⟨"variables" :: s⟩ = some (.object before) →
        Entries.keys before <+: Entries.keys after) ∧
    ∀ second, ∃ last, c'.setVariable property path second = .ok last ∧
      c.setVariable property path second = .ok last := by
  intro way target
  have hapart := @lookup_setVariable_of_apart _ _ _ _ _ h
  obtain ⟨vars, hw, rfl⟩ := setVariable_eq_ok_iff.mp h
  refine ⟨fun q => ?_, fun p hp ht => hapart ⟨ht, hp⟩, fun s hs => ?_, fun second => ?_⟩
  · rw [lookup_variables, List.append_assoc, List.singleton_append]
    exact Entries.lookup_writeAt hw q
  · simp only [lookup_variables]
    exact Entries.keys_prefix_writeAt hw hs
  · obtain ⟨last, hlast, honly⟩ := Entries.writeAt_writeAt hw second
    exact ⟨{ c with vars := last }, setVariable_eq_ok_iff.mpr ⟨last, hlast, rfl⟩,
      setVariable_eq_ok_iff.mpr ⟨last, honly, rfl⟩⟩

/-- A file written into a new object beneath an old one, which has a key already. -/
theorem setVariable_lawful_filed :
    let path : Option Path := some ⟨["box", "new"]⟩
    let filed := { stocked with
      vars :=
        [("box", .object [("first", .bool true), ("new", .object [("doc", .file "f" [1, 2])])]),
          ("flat", .integer 5)] }
    stocked.setVariable "doc" path (.file "f" [1, 2]) = .ok filed ∧
      filed.lookup ⟨["variables", "box", "new", "doc", "content"]⟩ = some (.binary [1, 2]) ∧
      filed.lookup ⟨["variables", "box", "first"]⟩ =
        stocked.lookup ⟨["variables", "box", "first"]⟩ ∧
      (∃ after, filed.lookup ⟨["variables", "box"]⟩ = some (.object after) ∧
        ["first"] <+: Entries.keys after) ∧
      ∃ last, filed.setVariable "doc" path .null = .ok last ∧
        stocked.setVariable "doc" path .null = .ok last := by
  intro path filed
  have h : stocked.setVariable "doc" path (.file "f" [1, 2]) = .ok filed := by rfl
  obtain ⟨hback, hapart, hkeys, hagain⟩ := setVariable_lawful h
  refine ⟨h, ?_, ?_, ?_, hagain .null⟩
  · have hread : filed.lookup ⟨["variables", "box", "new", "doc", "content"]⟩ =
        (Value.file "f" [1, 2]).lookup ["content"] := hback ["content"]
    rw [hread]
    rfl
  · exact hapart ⟨["variables", "box", "first"]⟩ (by decide) (by decide)
  · obtain ⟨after, hafter, hprefix⟩ := hkeys ["box"] ⟨["new"], rfl⟩
    exact ⟨after, hafter, hprefix [("first", .bool true)] rfl⟩

end Context

end ActionFlow
