import TrustedHtml.Proofs.Families

/-!
# Setting Strictness

Every schema of a family can be made strict, or be made not to be, on its own. Nothing else
depends on that: names, places, levels and identities are the same, so a family with other
strictness is a later state of the same family.

## Main definitions

* `Schema.withStrictness`: the family of a schema with other strictness.

## Main results

* `Scope.withStrictness_grows`: **setting strictness anywhere** leaves a later state.
-/

namespace TrustedHtml

namespace Schema

variable {strict : SchemaId → Bool} {s child : Schema}

mutual

/-- A schema with the strictness that its identity is given, and so for the schemas of its rows. -/
def withStrictness (strict : SchemaId → Bool) : Schema → Schema
  | ⟨id, _, nesting, scalars, subsections⟩ =>
      ⟨id, strict id, nesting, scalars, withStrictnessOfRows strict subsections⟩

/-- The schemas of rows with the strictness that their identities are given. -/
def withStrictnessOfRows (strict : SchemaId → Bool) : List (Tag × Schema) → List (Tag × Schema)
  | [] => []
  | (t, child) :: rest => (t, withStrictness strict child) :: withStrictnessOfRows strict rest

end

/-- The schemas of rows, one after the other. -/
theorem withStrictnessOfRows_eq_map : ∀ subsections : List (Tag × Schema),
    withStrictnessOfRows strict subsections =
      subsections.map fun sub => (sub.1, sub.2.withStrictness strict)
  | [] => rfl
  | (t, child) :: rest => by
      rw [withStrictnessOfRows, withStrictnessOfRows_eq_map rest, List.map_cons]

@[simp] theorem withStrictness_id (s : Schema) : (s.withStrictness strict).id = s.id := by
  obtain ⟨_, _, _, _, _⟩ := s
  rfl

@[simp] theorem withStrictness_scalars (s : Schema) :
    (s.withStrictness strict).scalars = s.scalars := by
  obtain ⟨_, _, _, _, _⟩ := s
  rfl

@[simp] theorem withStrictness_subsections (s : Schema) :
    (s.withStrictness strict).subsections =
      s.subsections.map fun sub => (sub.1, sub.2.withStrictness strict) := by
  obtain ⟨_, _, _, _, subsections⟩ := s
  exact withStrictnessOfRows_eq_map subsections

/-- A family with other strictness is in order and a later state, if the family is in order. -/
theorem WellFormed.withStrictness (h : s.WellFormed) :
    (s.withStrictness strict).WellFormed ∧ s.Extends (s.withStrictness strict) := by
  induction h with
  | @intro s coherent children ih =>
      constructor
      · refine .intro ⟨fun {i v} hv => ?_, ?_, fun {i sub} hsub => ?_, ?_⟩ fun sub hsub => ?_
        · rw [withStrictness_scalars] at hv
          simpa using coherent.var_at hv
        · simpa using coherent.var_names
        · rw [withStrictness_subsections, List.getElem?_map, Option.map_eq_some_iff] at hsub
          obtain ⟨old, hold, rfl⟩ := hsub
          simpa using coherent.tag_at hold
        · simpa [Function.comp_def] using coherent.tag_names
        · rw [withStrictness_subsections, List.mem_map] at hsub
          obtain ⟨old, hold, rfl⟩ := hsub
          exact (ih old hold).1
      · refine .intro (withStrictness_id s) (fun i v hv => ⟨v, by simpa using hv, rfl, le_refl _⟩)
          (fun i sub hsub => ⟨sub.2.withStrictness strict, by simp [hsub]⟩) fun i a b ha hb => ?_
        rw [withStrictness_subsections, List.getElem?_map, ha] at hb
        obtain rfl := Option.some.inj hb
        exact (ih a (List.mem_of_getElem? ha)).2

/-- The identities that subsections tell are the same. -/
theorem Linked.withStrictness (h : s.Linked) : (s.withStrictness strict).Linked := by
  induction h with
  | @intro s ids children ih =>
      have hrows : ∀ {sub}, sub ∈ (s.withStrictness strict).subsections →
          ∃ old ∈ s.subsections, (old.1, old.2.withStrictness strict) = sub := by
        intro sub hsub
        rwa [withStrictness_subsections, List.mem_map] at hsub
      constructor
      · intro sub hsub
        obtain ⟨old, hold, rfl⟩ := hrows hsub
        simpa using ids old hold
      · intro sub hsub
        obtain ⟨old, hold, rfl⟩ := hrows hsub
        exact ih old hold

/-- The members of a family are those of the family with other strictness. -/
theorem WellFormed.family_withStrictness (h : s.WellFormed) :
    (s.withStrictness strict).family = s.family.map (Schema.withStrictness strict) := by
  induction h with
  | @intro s coherent children ih =>
      rw [family_eq, family_eq, List.map_cons, withStrictness_subsections, List.flatMap_map,
        List.map_flatMap]
      exact congrArg _ (List.flatMap_congr ih)

end Schema

namespace Scope

/-- **Setting strictness anywhere** leaves a later state. -/
theorem withStrictness_grows {s : Scope} (h : s.Proper) (strict : SchemaId → Bool) :
    s.Grows ⟨s.schema.withStrictness strict, s.next⟩ := by
  have hwf := h.inOrder.wellFormed
  have hids : (s.schema.withStrictness strict).ids = s.schema.ids := by
    rw [Schema.ids, hwf.family_withStrictness, List.map_map]
    exact List.map_congr_left fun d _ => Schema.withStrictness_id d
  refine ⟨⟨⟨hwf.withStrictness.1, h.inOrder.linked.withStrictness⟩, ?_, ?_⟩, le_refl _,
    hwf.withStrictness.2, fun d hd => .inl ?_⟩
  · rw [hids]
    exact h.distinct
  · rw [hids]
    exact h.fresh
  · rw [hwf.family_withStrictness, List.mem_map] at hd
    obtain ⟨c, hc, rfl⟩ := hd
    exact ⟨c, hc, (h.of_mem_family hc).inOrder.wellFormed.withStrictness.2⟩

end Scope

end TrustedHtml
