import TrustedHtml.Counter
import TrustedHtml.Error.Misuse
import TrustedHtml.Error.Structure
import TrustedHtml.Text.Held

/-!
# Failures

Operations end early for one of three reasons. A *failure* is due to the input, and carries
the steps that led to the place where it arose; a *misuse* is a mistake of the program; and
a counter can overflow.

## Main definitions

* `BindError` — why values cannot be bound.
* `Cause` — what can go wrong on account of the input.
* `Step` — a step on the way to the place of a failure.
* `Failure` — a cause and the steps to it, outermost first.
* `Abort` — why an operation ended early.
-/

namespace TrustedHtml

/-- What a name of a bind argument addresses. -/
inductive SlotKind where
  | var
  | subsection
deriving DecidableEq, Repr

/-- The name of a kind of slot. -/
def SlotKind.name : SlotKind → String
  | .var => "var"
  | .subsection => "subsection"

/-- Why a document cannot be bound. -/
inductive DocumentMismatch where
  | rowNotObject
  | rootNotObject
deriving DecidableEq, Repr

/-- The text of a mismatch. -/
def DocumentMismatch.message : DocumentMismatch → String
  | .rowNotObject => "subsection rows must be objects"
  | .rootNotObject => "expecting an object at the top level"

/-- Values cannot be bound to a schema. -/
inductive BindError where
  /-- A value does not meet the requirement of its slot. -/
  | trust (name : String) (source : TrustError)
  /-- A strict schema does not declare a name. -/
  | undefined (kind : SlotKind) (name : String)
  /-- A subsection handle belongs to another schema. -/
  | foreignSubsection (name : String)
  /-- A document does not have the form of values. -/
  | document (path : String) (reason : DocumentMismatch)
deriving DecidableEq, Repr

/-- The text under which an error is reported. -/
def BindError.message : BindError → String
  | .trust name source => s!"binding value {Text.held name}: {source.message}"
  | .undefined kind name => s!"undefined {kind.name} {Text.held name}"
  | .foreignSubsection name =>
    s!"subsection {Text.held name} is not attached to this schema"
  | .document path reason => s!"JSON value at {Text.quoted path}: {reason.message}"

/-- What went wrong, on account of the input. -/
inductive Cause where
  | trust (error : TrustError)
  | structural (error : StructureError)
  | bind (error : BindError)
  /-- The sink did not accept a write. -/
  | sinkClosed
  /-- An error of a source of rows. -/
  | other (message : String)
deriving DecidableEq, Repr

/-- The text under which a cause is reported. -/
def Cause.message : Cause → String
  | .trust error => error.message
  | .structural error => error.message
  | .bind error => error.message
  | .sinkClosed => "closed"
  | .other message => message

/-- A node that has children. -/
inductive Parent where
  | multi
  | element (name : String)
deriving DecidableEq, Repr

/-- How a parent is called. -/
def Parent.text : Parent → String
  | .multi => "multi"
  | .element name => s!"<{name}>"

/-- A step on the way to the place of a failure. Numbers count from 1. -/
inductive Step where
  | child (number : Nat) (parent : Parent)
  | attribute (name element : String)
  | subsection (name : String)
  | case (number count : Nat)
  | defaultCase
  | row (number count : Nat) (subsection : String)
  | chunk (number count : Nat)
deriving DecidableEq, Repr

/-- How a step is described. -/
def Step.text : Step → String
  | .child number parent => s!"child #{number} of {parent.text}"
  | .attribute name element => s!"attribute {Text.quoted name} of <{element}>"
  | .subsection name => s!"compiling subsection {Text.quoted name}"
  | .case number count => s!"compiling case {number}/{count}"
  | .defaultCase => "compiling default case"
  | .row number count name => s!"binding row {number}/{count} of subsection {Text.quoted name}"
  | .chunk number count => s!"rendering chunk #{number} of {count}"

/-- A cause and the steps to the place where it arose, outermost first. -/
structure Failure where
  cause : Cause
  steps : List Step
deriving DecidableEq, Repr

namespace Failure

/-- A failure at the place itself. -/
def ofCause (cause : Cause) : Failure := ⟨cause, []⟩

/-- The outermost description of a failure. -/
def headline (f : Failure) : String :=
  match f.steps with
  | step :: _ => step.text
  | [] => f.cause.message

end Failure

/-- Why an operation ended early. -/
inductive Abort where
  | failure (failure : Failure)
  | misuse (misuse : Misuse)
  | overflow (overflow : Overflow)
deriving DecidableEq

namespace Abort

/-- The abort for a cause that arises here. -/
def ofCause (cause : Cause) : Abort :=
  failure (Failure.ofCause cause)

/-- Describe a failure as having arisen at `step`. -/
def within (step : Step) : Abort → Abort
  | .failure f => failure { f with steps := step :: f.steps }
  | other => other

/-- The text under which the end of an operation is reported. -/
def headline : Abort → String
  | .failure f => f.headline
  | .misuse m => m.message
  | .overflow o => o.message

end Abort

/-- Describe a failure as having arisen at `step`. -/
def Except.within {α : Type} (step : Step) : Except Abort α → Except Abort α
  | .ok a => .ok a
  | .error e => .error (e.within step)

end TrustedHtml
