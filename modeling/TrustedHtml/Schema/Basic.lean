import TrustedHtml.Error.Misuse

/-!
# Schemas

A schema lists the variables and the nested subsections of a template, each at a fixed
place. Subsections have schemas of their own.

## Main definitions

* `Schema` — identity, strictness, variables and subsections.
* `Schema.scalar?`, `Schema.subsection?` — handles by name.
* `Schema.checkVar`, `Schema.checkTag` — whether a handle belongs to a schema.
* `Schema.child` — the schema of the rows of a subsection.
-/

namespace TrustedHtml

/-- The subsection whose rows a schema describes. -/
structure Nesting where
  parent : SchemaId
  index : Nat
  name : SlotName
deriving DecidableEq

/-- The variables and subsections of a template. -/
structure Schema where
  id : SchemaId
  /-- Whether binding fails on names that are not declared, instead of ignoring them. -/
  strict : Bool
  /-- The subsection this schema describes; none for a root schema. -/
  nesting : Option Nesting
  scalars : List Var
  subsections : List (Tag × Schema)

namespace Schema

/-- A root schema without variables. -/
def root (id : SchemaId) : Schema :=
  ⟨id, false, none, [], []⟩

/-- Whether the schema describes no subsection. -/
def isRoot (s : Schema) : Bool :=
  s.nesting.isNone

/-- The name of the subsection, or `root`. -/
def debugName (s : Schema) : String :=
  match s.nesting with
  | some n => n.name.text
  | none => "root"

/-- The variable of the given name. -/
def scalar? (s : Schema) (name : String) : Option Var :=
  s.scalars.find? fun v => v.name.text == name

/-- The subsection of the given name. -/
def subsection? (s : Schema) (name : String) : Option Tag :=
  (s.subsections.find? fun sub => sub.1.name.text == name).map (·.1)

/-- Whether a variable is attached to this schema. -/
def checkVar (s : Schema) (v : Var) : Except Misuse Unit :=
  match v.schema with
  | none => .error (.unattachedVar v)
  | some id => if id = s.id then .ok () else .error (.foreignVar v id s.id s.debugName)

/-- Whether a subsection is declared in this schema. -/
def checkTag (s : Schema) (t : Tag) (user : HandleUser) : Except Misuse Unit :=
  if t.parent = s.id then .ok () else .error (.foreignTag t user s.id s.debugName)

/-- The schema of the rows of a subsection. -/
def child (s : Schema) (t : Tag) : Except Misuse Schema := do
  s.checkTag t .schema
  match s.subsections[t.index]? with
  | some sub => return sub.2
  | none => throw (.noSuchSlot t.index s.subsections.length)

/-- The level that the place of a variable requires now. -/
def slotLevel (s : Schema) (v : Var) : Except Misuse TrustLevel :=
  match s.scalars[v.index]? with
  | some w => .ok w.level
  | none => .error (.noSuchSlot v.index s.scalars.length)

/-- The schema with another strictness; its subsections keep theirs. -/
def setStrict (s : Schema) (strict : Bool) : Schema :=
  { s with strict }

/-- The schema with another schema for the rows of a subsection. -/
def setChild (s : Schema) (t : Tag) (child : Schema) : Schema :=
  { s with subsections := s.subsections.set t.index (t, child) }

end Schema

end TrustedHtml
