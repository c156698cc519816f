import TrustedHtml.Proofs.Requirements
import TrustedHtml.Schema.Renumber

/-!
# Schemas Up to Identities

Schemas take their identities from a supply, so the same declarations yield other identities if
they are made after others, and nothing else differs. Two schemas are the same up to identities
if they are equal after every identity has been replaced by one and the same.

Looking something up by name and declaring commute with the replacement, and so declarations
take schemas that are the same up to identities to such schemas again. All that can be asked of
them by name is the same.

## Main results

* `Scope.useAll_sameUpToIds`: **declarations do not depend on identities.**
* `Schema.SameUpToIds.levelAt_eq`, `Schema.SameUpToIds.strictAt?_eq`: nor does what is required
  by name.
-/

namespace TrustedHtml

namespace Schema

/-- The schema with one and the same identity everywhere. -/
def anonymous (s : Schema) : Schema :=
  s.renumber fun _ => ⟨0⟩

/-- **Schemas that are the same up to identities.** -/
def SameUpToIds (s s' : Schema) : Prop :=
  s.anonymous = s'.anonymous

variable {s s' c c' : Schema} {f : SchemaId → SchemaId}

namespace SameUpToIds

/-- A schema is the same as itself. -/
theorem refl (s : Schema) : s.SameUpToIds s := rfl

/-- It does not matter which schema is named first. -/
theorem symm (h : s.SameUpToIds s') : s'.SameUpToIds s := Eq.symm h

end SameUpToIds

/-! ### Renumbering and looking up -/

/-- Subsections are renumbered one by one. -/
theorem renumberAll_eq_map (f : SchemaId → SchemaId) : ∀ subsections : List (Tag × Schema),
    renumberAll f subsections = subsections.map fun sub => (sub.1.renumber f, sub.2.renumber f)
  | [] => rfl
  | (t, child) :: rest => by rw [renumberAll, renumberAll_eq_map f rest, List.map_cons]

/-- A schema is renumbered part by part. -/
theorem renumber_mk (f : SchemaId → SchemaId) (id : SchemaId) (strict : Bool)
    (nesting : Option Nesting) (scalars : List Var) (subsections : List (Tag × Schema)) :
    (⟨id, strict, nesting, scalars, subsections⟩ : Schema).renumber f =
      ⟨f id, strict, nesting.map (·.renumber f), scalars.map (·.renumber f),
        subsections.map fun sub => (sub.1.renumber f, sub.2.renumber f)⟩ := by
  rw [renumber, renumberAll_eq_map]

/-- A variable is found under its name whatever the identities are. -/
theorem scalar?_renumber (f : SchemaId → SchemaId) (s : Schema) (name : String) :
    (s.renumber f).scalar? name = (s.scalar? name).map (·.renumber f) := by
  obtain ⟨_, _, _, _, _⟩ := s
  rw [renumber_mk, scalar?, scalar?, List.find?_map]
  rfl

/-- The schema of rows is found under the name of its subsection whatever the identities are. -/
theorem rows?_renumber (f : SchemaId → SchemaId) (s : Schema) (name : String) :
    (s.renumber f).rows? name = (s.rows? name).map (·.renumber f) := by
  obtain ⟨_, _, _, _, _⟩ := s
  rw [renumber_mk, rows?, rows?, List.find?_map, Option.map_map, Option.map_map]
  rfl

/-- What is required does not depend on identities. -/
theorem levelAt_renumber (f : SchemaId → SchemaId) (name : String) (path : List String)
    (s : Schema) : (s.renumber f).levelAt name path = s.levelAt name path := by
  induction path generalizing s with
  | nil =>
      rw [levelAt, levelAt, levelOf, levelOf, scalar?_renumber]
      cases s.scalar? name <;> rfl
  | cons sub path ih =>
      rw [levelAt, levelAt, rows?_renumber]
      cases s.rows? sub with
      | none => rfl
      | some child => exact ih child

/-- Strictness does not depend on identities. -/
theorem strictAt?_renumber (f : SchemaId → SchemaId) (path : List String) (s : Schema) :
    (s.renumber f).strictAt? path = s.strictAt? path := by
  induction path generalizing s with
  | nil =>
      obtain ⟨_, _, _, _, _⟩ := s
      rw [strictAt?, strictAt?, renumber_mk]
  | cons sub path ih =>
      rw [strictAt?, strictAt?, rows?_renumber]
      cases s.rows? sub with
      | none => rfl
      | some child => exact ih child

namespace SameUpToIds

/-- Schemas that are the same up to identities require the same. -/
theorem levelAt_eq (h : s.SameUpToIds s') (name : String) (path : List String) :
    s.levelAt name path = s'.levelAt name path := by
  rw [← levelAt_renumber (fun _ => ⟨0⟩), ← levelAt_renumber (fun _ => ⟨0⟩) name path s']
  exact congrArg (levelAt name path) h

/-- Schemas that are the same up to identities are strict at the same places. -/
theorem strictAt?_eq (h : s.SameUpToIds s') (path : List String) :
    s.strictAt? path = s'.strictAt? path := by
  rw [← strictAt?_renumber (fun _ => ⟨0⟩), ← strictAt?_renumber (fun _ => ⟨0⟩) path s']
  exact congrArg (strictAt? path) h

end SameUpToIds

/-! ### Renumbering and declaring -/

/-- Declaring a variable commutes with renumbering. -/
theorem declare_renumber (f : SchemaId → SchemaId) (s : Schema) (name : SlotName)
    (level : TrustLevel) :
    ((s.renumber f).declare name level).2 = (s.declare name level).2.renumber f := by
  rw [declare, declare, scalar?_renumber]
  obtain ⟨id, strict, nesting, scalars, subsections⟩ := s
  cases scalar? _ name.text with
  | some v => simp [renumber_mk, Var.renumber, List.map_set]
  | none => simp [renumber_mk, Var.renumber]

/-- Replacing the schema of rows commutes with renumbering. -/
theorem setChild_renumber (f : SchemaId → SchemaId) (s : Schema) (t : Tag) (child : Schema) :
    (s.renumber f).setChild (t.renumber f) (child.renumber f) =
      (s.setChild t child).renumber f := by
  obtain ⟨_, _, _, _, _⟩ := s
  simp only [setChild, renumber_mk, List.map_set]
  rfl

end Schema

namespace Scope

open Schema

variable {s s' : Scope}

/-- The scope with one and the same identity everywhere, also for the next schema. -/
def anonymous (s : Scope) : Scope :=
  ⟨s.schema.anonymous, 0⟩

/-- Declaring a subsection commutes with making schemas anonymous. -/
theorem declareSubsection_anonymous (s : Scope) (name : SlotName) :
    (s.anonymous.declareSubsection name).1.1 =
        (s.declareSubsection name).1.1.renumber (fun _ => ⟨0⟩) ∧
      (s.anonymous.declareSubsection name).1.2 = (s.declareSubsection name).1.2.anonymous ∧
      (s.anonymous.declareSubsection name).2.schema =
        (s.declareSubsection name).2.schema.anonymous := by
  obtain ⟨⟨id, strict, nesting, scalars, subsections⟩, next⟩ := s
  simp only [anonymous, Schema.anonymous, declareSubsection, renumber_mk, List.find?_map]
  have hname : ((fun sub : Tag × Schema => decide (sub.1.name = name)) ∘
      fun sub : Tag × Schema => (sub.1.renumber fun _ => ⟨0⟩, sub.2.renumber fun _ => ⟨0⟩)) =
        fun sub => decide (sub.1.name = name) := rfl
  rw [hname]
  cases subsections.find? fun sub : Tag × Schema => decide (sub.1.name = name) with
  | some sub => simp [renumber_mk]
  | none => simp [renumber_mk, Tag.renumber, Nesting.renumber]

mutual

/-- A declaration does not depend on identities. -/
theorem use_sameUpToIds {s s' : Scope} (h : s.schema.SameUpToIds s'.schema) : ∀ u : Use,
    (s.use u).schema.SameUpToIds (s'.use u).schema
  | .scalar name level => by
      rw [use, use, SameUpToIds, Schema.anonymous, Schema.anonymous, ← declare_renumber,
        ← declare_renumber]
      exact congrArg (fun schema : Schema => (schema.declare name level).2) h
  | .subsection name uses => by
      have hanonymous : s.anonymous = s'.anonymous := congrArg (Scope.mk · 0) h
      obtain ⟨htag, hrows, hschema⟩ := s.declareSubsection_anonymous name
      obtain ⟨htag', hrows', hschema'⟩ := s'.declareSubsection_anonymous name
      rw [hanonymous] at htag hrows hschema
      have hinside : (s.inside name).schema.SameUpToIds (s'.inside name).schema :=
        hrows.symm.trans hrows'
      have hinner := useAll_sameUpToIds hinside uses
      rw [use, use, SameUpToIds, Schema.anonymous, Schema.anonymous, ← setChild_renumber,
        ← setChild_renumber, ← htag, ← htag']
      exact congrArg₂ (fun schema child : Schema => schema.setChild _ child)
        (hschema.symm.trans hschema') hinner

/-- **Declarations do not depend on identities.** -/
theorem useAll_sameUpToIds {s s' : Scope} (h : s.schema.SameUpToIds s'.schema) :
    ∀ uses : List Use, (s.useAll uses).schema.SameUpToIds (s'.useAll uses).schema
  | [] => h
  | u :: rest => useAll_sameUpToIds (use_sameUpToIds h u) rest

end

end Scope

end TrustedHtml
