import TrustedHtml.Schema.Basic

/-!
# Renumbering

The identities of schemas are given out in the order of their declaration, so the same
declarations yield other identities if they come after others. Renumbering replaces the
identities and leaves everything else as it is.

## Main definitions

* `Var.renumber`, `Tag.renumber`, `Schema.renumber` — other identities for the schemas.
-/

namespace TrustedHtml

/-- The handle with another identity for its schema. -/
def Var.renumber (f : SchemaId → SchemaId) (v : Var) : Var :=
  { v with schema := v.schema.map f }

/-- The handle with other identities for its schemas. -/
def Tag.renumber (f : SchemaId → SchemaId) (t : Tag) : Tag :=
  { t with parent := f t.parent, child := f t.child }

/-- The nesting with another identity for the parent. -/
def Nesting.renumber (f : SchemaId → SchemaId) (n : Nesting) : Nesting :=
  { n with parent := f n.parent }

namespace Schema

mutual

/-- The schema with other identities. -/
def renumber (f : SchemaId → SchemaId) : Schema → Schema
  | ⟨id, strict, nesting, scalars, subsections⟩ =>
    ⟨f id, strict, nesting.map (·.renumber f), scalars.map (·.renumber f),
      renumberAll f subsections⟩

/-- The subsections with other identities. -/
def renumberAll (f : SchemaId → SchemaId) : List (Tag × Schema) → List (Tag × Schema)
  | [] => []
  | (t, child) :: rest => (t.renumber f, renumber f child) :: renumberAll f rest

end

end Schema

end TrustedHtml
