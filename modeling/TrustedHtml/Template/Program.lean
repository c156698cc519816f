import TrustedHtml.Node.Basic
import TrustedHtml.Schema.Dump
import TrustedHtml.Text.Reflow
import TrustedHtml.Values.Basic

/-!
# Programs

A tree is compiled to a flat sequence of chunks: static text, references to variables, and
nested programs for subsections and alternatives.

## Main definitions

* `Chunk` — one step of a program.
* `Program` — a sequence of chunks.
* `Chunk.describe`, `Program.lines` — descriptions.
-/

namespace TrustedHtml

/-- One step of a program. -/
inductive Chunk where
  | static (text : String)
  /-- The value of a variable, possibly reflowed. -/
  | scalar (var : Var) (reflow : Option Reflow)
  /-- The program is carried out for every row of the subsection. -/
  | subsection (tag : Tag) (program : List Chunk)
  /-- The program of the first case that holds is carried out, if it has one, and otherwise
  the default. -/
  | switch (cases : List (Condition × Option (List Chunk))) (default : Option (List Chunk))

/-- A sequence of chunks. -/
abbrev Program := List Chunk

/-- How a chunk is described. -/
def Chunk.describe : Chunk → String
  | static text => s!"static {Text.quoted text}"
  | scalar var none => s!"scalar {var.describe}"
  | scalar var (some r) =>
    s!"scalar {var.describe} wrapped at {r.width}, depth {r.depth}, indent {Text.quoted r.indent}"
  | subsection tag program => s!"subsection {tag.describe} ({program.length} chunks)"
  | switch cases default =>
    let ending := if default.isSome then ", default" else ""
    s!"switch ({cases.length} cases{ending})"

namespace Program

mutual

/-- The lines for a program, indented by `depth` tabs; its first chunk has the given number. -/
def linesFrom (depth number count : Nat) : List Chunk → List String
  | [] => []
  | chunk :: rest =>
    s!"{Text.tabs depth}chunk {number}/{count}: {chunk.describe}" ::
      (nestedLines depth chunk ++ linesFrom depth (number + 1) count rest)

/-- The lines for the programs in a chunk. -/
def nestedLines (depth : Nat) : Chunk → List String
  | .static _ => []
  | .scalar _ _ => []
  | .subsection _ program => linesFrom (depth + 1) 1 program.length program
  | .switch cases default =>
    caseLines depth 1 cases.length cases ++ defaultLines depth default

/-- The lines for the cases of a switch, the first of which has the given number. -/
def caseLines (depth number count : Nat) : List (Condition × Option (List Chunk)) → List String
  | [] => []
  | (_, none) :: rest =>
    s!"{Text.tabs depth}\tcase {number}/{count}:" :: caseLines depth (number + 1) count rest
  | (_, some program) :: rest =>
    s!"{Text.tabs depth}\tcase {number}/{count}:" ::
      (linesFrom (depth + 2) 1 program.length program
        ++ caseLines depth (number + 1) count rest)

/-- The lines for the default of a switch. -/
def defaultLines (depth : Nat) : Option (List Chunk) → List String
  | none => []
  | some program =>
    s!"{Text.tabs depth}\tdefault:" :: linesFrom (depth + 2) 1 program.length program

end

/-- The lines that describe a program, indented by `depth` tabs. -/
def lines (program : Program) (depth : Nat) : List String :=
  linesFrom depth 1 program.length program

end Program

end TrustedHtml
