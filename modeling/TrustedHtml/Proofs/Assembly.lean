import Mathlib.Tactic.Common
import TrustedHtml.Template.Assemble

/-!
# Assembled Programs

How pieces are assembled to chunks depends on the layout: static text is merged up to the next
step, or left in pieces, and a fresh line is begun or found. None of that matters to what
depends on values. This module says what each kind of piece does to the program that has been
assembled so far, `Assembly.program`, and derives that the chunks that are no static text are
the steps among the pieces, in their order.

## Main results

* `Assembly.program_write`, `Assembly.program_step`: what a piece does to the program.
* `Program.steps_assemble`: **assembling loses no step** and moves none.
-/

namespace TrustedHtml

/-! ### The program so far -/

namespace Assembly

variable (o : LayoutOptions) (a : Assembly)

/-- The program that has been assembled so far. -/
def program (a : Assembly) : Program :=
  a.flush.chunks.reverse

/-- A step is appended to the program. -/
theorem program_step (chunk : Chunk) : (a.add o (.step chunk)).program = a.program ++ [chunk] := by
  obtain ⟨chunks, _ | texts⟩ := a <;> simp [program, add, flush]

/-- Text is appended to the program as a chunk of its own, or to the text at its end. -/
theorem program_write (text : String) :
    (a.write o text).program = a.program ++ [.static text] ∨
      ∃ init last, a.program = init ++ [.static last] ∧
        (a.write o text).program = init ++ [.static (last ++ text)] := by
  obtain ⟨chunks, _ | texts⟩ := a
  · left
    simp [program, write, flush]
  · cases hseparate : o.separate with
    | true =>
        left
        simp [program, write, flush, hseparate]
    | false =>
        right
        refine ⟨chunks.reverse, String.join texts.reverse, ?_, ?_⟩ <;>
          simp [program, write, flush, hseparate]

/-- A fresh line is found, or a line break is written. -/
theorem add_freshLine (depth : ℕ) :
    a.add o (.freshLine depth) = a ∨
      a.add o (.freshLine depth) = a.write o (o.lineBreak depth) := by
  rw [add]
  split
  · exact .inl rfl
  · exact .inr rfl

end Assembly

/-! ### Steps -/

/-- Whether a chunk is text that is known. -/
def Chunk.isStatic : Chunk → Bool
  | .static _ => true
  | _ => false

/-- The chunks of a program that depend on values. -/
def Program.steps (program : Program) : Program :=
  program.filter (!·.isStatic)

/-- The step that a piece is, if it is one that depends on values. -/
def Piece.steps : Piece → Program
  | .text _ | .freshLine _ => []
  | .step chunk => Program.steps [chunk]

/-- Writing adds no step. -/
theorem Assembly.steps_write (o : LayoutOptions) (a : Assembly) (text : String) :
    (a.write o text).program.steps = a.program.steps := by
  obtain h | ⟨init, last, hbefore, hafter⟩ := a.program_write o text
  · rw [h, Program.steps, Program.steps, List.filter_append]
    exact List.append_nil _
  · rw [hbefore, hafter, Program.steps, Program.steps, List.filter_append, List.filter_append]
    rfl

/-- A piece adds its step. -/
theorem Assembly.steps_add (o : LayoutOptions) (a : Assembly) (piece : Piece) :
    (a.add o piece).program.steps = a.program.steps ++ piece.steps := by
  cases piece with
  | text text =>
      rw [Piece.steps, List.append_nil]
      exact a.steps_write o text
  | freshLine depth =>
      rw [Piece.steps, List.append_nil]
      obtain h | h := a.add_freshLine o depth
      · rw [h]
      · rw [h, a.steps_write]
  | step chunk =>
      rw [a.program_step, Program.steps, List.filter_append]
      rfl

/-- **Assembling loses no step**: the chunks of a program that depend on values are the steps
among its pieces, in their order. -/
theorem Program.steps_assemble (o : LayoutOptions) (pieces : List Piece) :
    (assemble o pieces).steps = pieces.flatMap Piece.steps := by
  have hrun : ∀ a : Assembly, (pieces.foldl (Assembly.add o) a).program.steps =
      a.program.steps ++ pieces.flatMap Piece.steps := by
    induction pieces with
    | nil =>
        intro a
        simp
    | cons piece rest ih =>
        intro a
        rw [List.foldl_cons, ih, a.steps_add, List.flatMap_cons, List.append_assoc]
  exact hrun .empty

end TrustedHtml
