import TrustedHtml.Error.Failure
import TrustedHtml.Schema.Basic

/-!
# Declarations

Declarations only ever append to a schema, or raise the level that a variable requires. New
schemas take their identities from a common supply, in the order of their declaration.

## Main definitions

* `Schema.declare` — declares a variable, or raises its level.
* `Schema.attach` — declares the variable of a handle.
* `Scope` — a schema and the supply of identities.
* `Declaring` — operations that declare; what they declared stays, even if they fail.
* `Declaring.inSubsection` — declares a subsection and works on its schema.
* `Declaring.inChild` — works on the schema of a subsection that is declared.
-/

namespace TrustedHtml

namespace Schema

/-- Declare a variable. If the name is known, its level is raised to the join with `level`;
its place never changes. -/
def declare (s : Schema) (name : SlotName) (level : TrustLevel) : Var × Schema :=
  match s.scalar? name.text with
  | some v =>
    let raised := { v with level := v.level.join level }
    (raised, { s with scalars := s.scalars.set v.index raised })
  | none =>
    let v : Var := ⟨s.scalars.length, name, level, some s.id⟩
    (v, { s with scalars := s.scalars ++ [v] })

/-- Declare the name of a handle, at the join of its level and `extra`. -/
def attach (s : Schema) (v : Var) (extra : TrustLevel) : Var × Schema :=
  s.declare v.name (v.level.join extra)

end Schema

/-- A schema that is being declared on, and the number of the next schema. -/
structure Scope where
  schema : Schema
  next : Nat

namespace Scope

/-- A new root schema. -/
def newRoot (next : Nat) : Scope :=
  ⟨Schema.root ⟨next⟩, next + 1⟩

/-- Declare a subsection, unless there is one of that name, and give its handle and the
schema of its rows. -/
def declareSubsection (s : Scope) (name : SlotName) : (Tag × Schema) × Scope :=
  match s.schema.subsections.find? fun sub => sub.1.name = name with
  | some sub => (sub, s)
  | none =>
    let index := s.schema.subsections.length
    let child : Schema := ⟨⟨s.next⟩, false, some ⟨s.schema.id, index, name⟩, [], []⟩
    let tag : Tag := ⟨index, name, s.schema.id, child.id⟩
    let schema := { s.schema with subsections := s.schema.subsections ++ [(tag, child)] }
    ((tag, child), ⟨schema, s.next + 1⟩)

end Scope

/-- An operation that declares on a schema. -/
abbrev Declaring (α : Type) := EStateM Abort Scope α

namespace Declaring

/-- Declare a variable. -/
def scalar (name : SlotName) (level : TrustLevel) : Declaring Var :=
  modifyGet fun s =>
    let (v, schema) := s.schema.declare name level
    (v, { s with schema })

/-- Declare the name of a handle. -/
def attach (v : Var) (extra : TrustLevel) : Declaring Var :=
  scalar v.name (v.level.join extra)

/-- Declare a subsection and work on the schema of its rows. -/
def inSubsection {α : Type} (name : SlotName) (act : Declaring α) : Declaring (Tag × α) :=
  fun s =>
    let ((tag, child), s) := s.declareSubsection name
    match act ⟨child, s.next⟩ with
    | .ok a inner => .ok (tag, a) ⟨s.schema.setChild tag inner.schema, inner.next⟩
    | .error e inner => .error e ⟨s.schema.setChild tag inner.schema, inner.next⟩

/-- Work on the schema of the rows of a subsection, which has to belong to the schema. -/
def inChild {α : Type} (t : Tag) (act : Declaring α) : Declaring α :=
  fun s =>
    match s.schema.child t with
    | .error m => .error (.misuse m) s
    | .ok child =>
      match act ⟨child, s.next⟩ with
      | .ok a inner => .ok a ⟨s.schema.setChild t inner.schema, inner.next⟩
      | .error e inner => .error e ⟨s.schema.setChild t inner.schema, inner.next⟩

/-- Describe a failure as having arisen at `step`. -/
def within {α : Type} (step : Step) (act : Declaring α) : Declaring α :=
  fun s =>
    match act s with
    | .ok a s => .ok a s
    | .error e s => .error (e.within step) s

/-- The name of a variable, which must not be empty. -/
def varName (name : String) : Declaring SlotName :=
  match SlotName.ofString? name with
  | some name => pure name
  | none => throw (.misuse .emptyVarName)

/-- The name of a subsection, which must not be empty. -/
def subsectionName (name : String) : Declaring SlotName :=
  match SlotName.ofString? name with
  | some name => pure name
  | none => throw (.misuse .emptySubsectionName)

end Declaring

end TrustedHtml
