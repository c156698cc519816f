import TrustedHtml.Binding.Bind
import TrustedHtml.Schema.Declare

/-!
# Schemas Derived from Arguments

A schema can be derived from data: every name that arguments use is declared, recursively, so
that they can be bound.

## Main definitions

* `Declaring.bindings` — declares the names that arguments use.
* `Declaring.declareAndBind` — declares them unless the schema is strict, and binds.
-/

namespace TrustedHtml

namespace Declaring

/-- The name of the subsection that a key addresses; a handle has to belong to the schema. -/
def keyTagName : Key Tag → Declaring SlotName
  | .name n => subsectionName n
  | .handle t => do
    if t.parent = (← get).schema.id then pure t.name
    else throw (.ofCause (.bind (.foreignSubsection t.name.text)))

mutual

/-- Declare the name that an argument uses. -/
def binding : BindArg → Declaring Unit
  | .scalar (.handle v) _ level => do discard <| attach v level
  | .scalar (.name n) _ level => do discard <| scalar (← varName n) level
  | .rows key rows => do discard <| inSubsection (← keyTagName key) (bindingRows rows)

/-- Declare the names that rows use. -/
def bindingRows : List (List BindArg) → Declaring Unit
  | [] => pure ()
  | row :: rest => do
    bindings row
    bindingRows rest

/-- Declare the names that arguments use. -/
def bindings : List BindArg → Declaring Unit
  | [] => pure ()
  | arg :: rest => do
    binding arg
    bindings rest

end

/-- Declare the names that arguments use, unless the schema is strict, and bind them. What was
declared stays, even if binding fails. -/
def declareAndBind [UrlReader] (args : List BindArg) : Declaring ValueSet := do
  unless (← get).schema.strict do bindings args
  match (← get).schema.bind args with
  | .ok vs => pure vs
  | .error e => throw e

end Declaring

end TrustedHtml
