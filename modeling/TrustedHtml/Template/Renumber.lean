import TrustedHtml.Binding.Arg
import TrustedHtml.Schema.Renumber
import TrustedHtml.Template.Basic

/-!
# Renumbering Templates

Templates and bind arguments hold handles, and so the identities of schemas.

## Main definitions

* `Program.renumber`, `Template.renumber` — templates with other identities.
* `BindArg.renumber` — an argument with other identities.
-/

namespace TrustedHtml

namespace Program

mutual

/-- The chunk with other identities. -/
def renumberChunk (f : SchemaId → SchemaId) : Chunk → Chunk
  | .static text => .static text
  | .scalar v reflow => .scalar (v.renumber f) reflow
  | .subsection t program => .subsection (t.renumber f) (renumber f program)
  | .switch cases default => .switch (renumberCases f cases) (renumberOutput f default)

/-- The program with other identities. -/
def renumber (f : SchemaId → SchemaId) : List Chunk → List Chunk
  | [] => []
  | chunk :: rest => renumberChunk f chunk :: renumber f rest

/-- The cases with other identities. -/
def renumberCases (f : SchemaId → SchemaId) :
    List (Condition × Option (List Chunk)) → List (Condition × Option (List Chunk))
  | [] => []
  | (condition, output) :: rest =>
    (condition, renumberOutput f output) :: renumberCases f rest

/-- The program of an alternative with other identities. -/
def renumberOutput (f : SchemaId → SchemaId) : Option (List Chunk) → Option (List Chunk)
  | none => none
  | some program => some (renumber f program)

end

end Program

/-- The template with other identities. -/
def Template.renumber (f : SchemaId → SchemaId) (t : Template) : Template :=
  ⟨t.schema.renumber f, Program.renumber f t.program⟩

namespace BindArg

/-- The key with another handle, if it has one. -/
def renumberKey {α : Type} (f : α → α) : Key α → Key α
  | .handle a => .handle (f a)
  | .name n => .name n

mutual

/-- The argument with other identities. -/
def renumber (f : SchemaId → SchemaId) : BindArg → BindArg
  | scalar key value level => scalar (renumberKey (Var.renumber f) key) value level
  | rows key rs => rows (renumberKey (Tag.renumber f) key) (renumberRows f rs)

/-- The rows with other identities. -/
def renumberRows (f : SchemaId → SchemaId) : List (List BindArg) → List (List BindArg)
  | [] => []
  | row :: rest => renumberAll f row :: renumberRows f rest

/-- The arguments with other identities. -/
def renumberAll (f : SchemaId → SchemaId) : List BindArg → List BindArg
  | [] => []
  | arg :: rest => renumber f arg :: renumberAll f rest

end

end BindArg

end TrustedHtml
