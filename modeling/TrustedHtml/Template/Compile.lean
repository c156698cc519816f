import TrustedHtml.Node.Basic
import TrustedHtml.Schema.Declare
import TrustedHtml.Template.Assemble
import TrustedHtml.Template.Basic
import TrustedHtml.Trust.AttributeLevel

/-!
# Compiling Trees

Compiling a tree checks its names and the strings that are known, declares the variables and
subsections it uses at the levels that their places require, and yields the pieces of a
program. Prototypes and alternatives become programs of their own; alternatives share the
variables of what surrounds them.

## Main definitions

* `SlotName.checked` — names that can be written into a page.
* `Attribute.lastOfEachName` — the attributes that count.
* `Node.pieces` — the pieces for a tree.
* `Node.compile` — the template for a tree.
-/

namespace TrustedHtml

/-- Characters of names that are written into a page. -/
def isNameChar (c : Char) : Bool :=
  c.isAlphanum || c == '-' || c == '_' || c == ':' || c == '.'

/-- Names are written as they are, so only plain ones are allowed. -/
def SlotName.checked (kind : NameKind) (name : String) : Except StructureError SlotName :=
  match SlotName.ofString? name with
  | some plain =>
    if name.toList.all isNameChar then .ok plain else .error (.invalidName kind name)
  | none => .error (.invalidName kind name)

namespace Attribute

/-- The attributes whose names have not been seen yet; a name has been seen from its first
attribute on. -/
def unseen (seen : List String) : List Attribute → List Attribute
  | [] => []
  | a :: rest => if a.name ∈ seen then unseen seen rest else a :: unseen (a.name :: seen) rest

/-- The attributes that no later one of the same name replaces, in order: seen from the end, they
are the first of their names. -/
def lastOfEachName (attributes : List Attribute) : List Attribute :=
  (unseen [] attributes.reverse).reverse

/-- Of what has been seen only the names matter. -/
theorem unseen_congr {seen seen' : List String} (h : ∀ name, name ∈ seen ↔ name ∈ seen')
    (attributes : List Attribute) : unseen seen attributes = unseen seen' attributes := by
  induction attributes generalizing seen seen' with
  | nil => rfl
  | cons a rest ih =>
      have hcons : ∀ name, name ∈ a.name :: seen ↔ name ∈ a.name :: seen' := by simp [h]
      simp only [unseen, h, ih h, ih hcons]

/-- **Attributes behind others**: the names of the others have been seen there. -/
theorem unseen_append (seen : List String) (attributes others : List Attribute) :
    unseen seen (attributes ++ others) =
      unseen seen attributes ++ unseen (attributes.map (·.name) ++ seen) others := by
  induction attributes generalizing seen with
  | nil => rfl
  | cons a rest ih =>
      simp only [List.cons_append, List.map_cons, unseen]
      split
      · rw [ih]
        exact congrArg (_ ++ ·) (unseen_congr (by simp_all) others)
      · rw [ih, List.cons_append]
        exact congrArg (a :: _ ++ ·) (unseen_congr (by simp [or_left_comm]) others)

/-- **The first attribute counts** if no later one has its name. -/
theorem lastOfEachName_cons (a : Attribute) (rest : List Attribute) :
    lastOfEachName (a :: rest) =
      if rest.any (·.name == a.name) then lastOfEachName rest else a :: lastOfEachName rest := by
  rw [lastOfEachName, List.reverse_cons, unseen_append, List.reverse_append, unseen, unseen, unseen]
  have hseen : a.name ∈ rest.reverse.map (·.name) ++ [] ↔ rest.any (·.name == a.name) = true := by
    simp
  simp only [hseen]
  split <;> rfl

end Attribute

namespace Declaring

/-- Fail if an error has arisen. -/
def orStructure {α : Type} : Except StructureError α → Declaring α
  | .ok a => pure a
  | .error e => throw (.ofCause (.structural e))

/-- Fail if a string does not meet its requirement. -/
def orTrust {α : Type} : Except TrustError α → Declaring α
  | .ok a => pure a
  | .error e => throw (.ofCause (.trust e))

/-- Stop if a counter overflows. -/
def orOverflow {α : Type} : Except Overflow α → Declaring α
  | .ok a => pure a
  | .error o => throw (.overflow o)

end Declaring

/-- The level that an attribute requires of its value. -/
def Attribute.required (a : Attribute) : TrustLevel :=
  (TrustLevel.ofAttribute a.name).join a.level

variable [UrlReader]

/-- The piece for a value at a place that requires `level`. -/
def Value.piece (level : TrustLevel) : Value → Declaring Piece
  | .concrete s => do return .text (← Declaring.orTrust (s.check level))
  | .deferred v => do return .step (.scalar (← Declaring.attach v level) none)

/-- The pieces for an attribute. -/
def Attribute.pieces (a : Attribute) : Declaring (List Piece) := do
  discard <| Declaring.orStructure (SlotName.checked .attribute a.name)
  let value ← a.value.piece a.required
  return [.text s!" {a.name}=\"", value, .text "\""]

/-- The pieces for a text. One that is known is reflowed now, any other one when it is
rendered. -/
def Value.textPiece (o : LayoutOptions) (depth : Nat) (width : Option Nat) :
    Value → Declaring Piece
  | .concrete s => do
    let checked ← Declaring.orTrust (s.check .textSafe)
    let reflow : Reflow := ⟨width.getD o.textWidth, depth, o.indent⟩
    return .text (← Declaring.orOverflow (reflow.apply checked))
  | .deferred v => do
    let v ← Declaring.attach v .textSafe
    let width := width.getD o.textWidth
    return .step (.scalar v (if 0 < width then some ⟨width, depth, o.indent⟩ else none))

namespace Element

/-- Whether the element has no closing tag. -/
def isClosed (e : Element) : Bool :=
  e.selfClosing || e.xmlSelfClosing

/-- What makes an element malformed as such. -/
def check (e : Element) (contents : List Node) : Except StructureError Unit := do
  match e.error with
  | some error => throw error
  | none =>
    discard <| SlotName.checked .element e.name
    if e.isClosed && !contents.isEmpty then throw (.selfClosingWithContents e.name)

/-- The pieces for attributes. -/
def attributePieces (e : Element) : List Attribute → Declaring (List Piece)
  | [] => return []
  | a :: rest => do
    let first ← a.pieces.within (.attribute a.name e.name)
    return first ++ (← e.attributePieces rest)

/-- The pieces for the opening tag. -/
def openingPieces (e : Element) : Declaring (List Piece) := do
  let attributes ← e.attributePieces (Attribute.lastOfEachName e.attributes)
  return .text s!"<{e.name}" :: attributes ++ [.text (if e.xmlSelfClosing then "/>" else ">")]

end Element

namespace Node

mutual

/-- The pieces for a tree at the given depth of indentation. -/
def pieces (o : LayoutOptions) (depth : Nat) : Node → Declaring (List Piece)
  | .element e contents => do
    Declaring.orStructure (e.check contents)
    let isBlock := e.style == .block && !o.isCompact
    let opening ← e.openingPieces
    let start := if isBlock then [.freshLine depth] else []
    if e.isClosed then return start ++ opening
    let inner ← if isBlock then Declaring.orOverflow (Counter.add depth 1) else pure depth
    let body ← childPieces o inner (.element e.name) 1 contents
    let lineBreak (depth : Nat) : List Piece := if isBlock then [.text (o.lineBreak depth)] else []
    return start ++ opening ++ lineBreak inner ++ body ++ lineBreak depth
      ++ [.text s!"</{e.name}>"]
  | .text value width => do return [← value.textPiece o depth width]
  | .raw value => do return [← value.piece .htmlSafe]
  | .multi error contents => do
    match error with
    | some e => throw (.ofCause (.structural e))
    | none => childPieces o depth .multi 1 contents
  | .subsection name prototype => do
    let slot ← Declaring.orStructure (SlotName.checked .subsection name)
    let (tag, found) ← Declaring.inSubsection slot
      ((pieces o depth prototype).within (.subsection name))
    return [.step (.subsection tag (Program.assemble o found))]
  | .switch cases default => do
    let programs ← casePrograms o depth 1 cases.length cases
    return [.step (.switch programs (← defaultProgram o depth default))]

/-- The pieces for children, the first of which has the given number. -/
def childPieces (o : LayoutOptions) (depth : Nat) (parent : Parent) (number : Nat) :
    List Node → Declaring (List Piece)
  | [] => return []
  | child :: rest => do
    let first ← (pieces o depth child).within (.child number parent)
    return first ++ (← childPieces o depth parent (number + 1) rest)

/-- The programs for cases, the first of which has the given number. -/
def casePrograms (o : LayoutOptions) (depth number count : Nat) :
    List (Condition × Option Node) → Declaring (List (Condition × Option Program))
  | [] => return []
  | (condition, none) :: rest => do
    return (condition, none) :: (← casePrograms o depth (number + 1) count rest)
  | (condition, some output) :: rest => do
    let found ← (pieces o depth output).within (.case number count)
    return (condition, some (Program.assemble o found)) ::
      (← casePrograms o depth (number + 1) count rest)

/-- The program for the default of a switch. -/
def defaultProgram (o : LayoutOptions) (depth : Nat) :
    Option Node → Declaring (Option Program)
  | none => return none
  | some output => do
    let found ← (pieces o depth output).within .defaultCase
    return some (Program.assemble o found)

end

/-- Compile a tree, declaring what it uses in the schema of the scope. With the template comes
the number of the next schema, also if compiling fails. -/
def compile (node : Node) (o : LayoutOptions) (scope : Scope) : Except Abort Template × Nat :=
  match node.pieces o o.rootDepth scope with
  | .ok found scope => (.ok ⟨scope.schema, Program.assemble o found⟩, scope.next)
  | .error e scope => (.error e, scope.next)

end Node

end TrustedHtml
