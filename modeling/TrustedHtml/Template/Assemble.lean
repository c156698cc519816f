import TrustedHtml.Template.Options
import TrustedHtml.Template.Program

/-!
# Assembling Programs

A tree is compiled to pieces, one for every bit of text that is written and every step that
depends on values. Pieces are assembled to chunks: the static text between two other steps
becomes one chunk, or one for every piece if it is to be left in pieces. A block element has
to start on a fresh line; whether it does is judged from the static text in front of it that
is not yet part of a chunk.

## Main definitions

* `Piece` — what compiling a tree yields.
* `Assembly` — chunks, and the static text behind them.
* `Assembly.onFreshLine` — whether the output so far ends in a line break and indentation.
* `Program.assemble` — the program for a sequence of pieces.
-/

namespace TrustedHtml

/-- A line break and indentation. -/
def LayoutOptions.lineBreak (o : LayoutOptions) (depth : Nat) : String :=
  "\n" ++ Text.copies depth o.indent

/-- What compiling a tree yields. -/
inductive Piece where
  | text (text : String)
  /-- A line break and indentation to `depth`, unless the output stands on a fresh line. -/
  | freshLine (depth : Nat)
  | step (chunk : Chunk)

/-- A program that is being assembled. The latest comes first in both lists. -/
structure Assembly where
  chunks : List Chunk
  /-- The static text behind the chunks, if any has been written since. -/
  pending : Option (List String)

namespace Assembly

/-- Nothing yet. -/
def empty : Assembly := ⟨[], none⟩

/-- Indentation on a fresh line. -/
def isIndentation (c : Char) : Bool :=
  c == ' ' || c == '\t'

/-- Whether texts, the latest of which comes first, end in a line break and indentation. -/
def endsFresh : List String → Bool
  | [] => false
  | text :: older =>
    match text.toList.reverse.dropWhile isIndentation with
    | [] => endsFresh older
    | c :: _ => c == '\n'

/-- Whether the output so far is known to end in a line break and indentation, or is empty. -/
def onFreshLine (a : Assembly) : Bool :=
  match a.pending with
  | none => a.chunks.isEmpty
  | some texts => endsFresh texts

/-- Make the static text a chunk. -/
def flush (a : Assembly) : Assembly :=
  match a.pending with
  | none => a
  | some texts => ⟨.static (String.join texts.reverse) :: a.chunks, none⟩

/-- Write static text, which begins a new chunk if text is left in pieces. -/
def write (o : LayoutOptions) (a : Assembly) (text : String) : Assembly :=
  let a := if o.separate then a.flush else a
  { a with pending := some (text :: a.pending.getD []) }

/-- Add a piece. -/
def add (o : LayoutOptions) (a : Assembly) : Piece → Assembly
  | .text text => a.write o text
  | .freshLine depth => if a.onFreshLine then a else a.write o (o.lineBreak depth)
  | .step chunk => let a := a.flush; { a with chunks := chunk :: a.chunks }

end Assembly

/-- The program for a sequence of pieces. -/
def Program.assemble (o : LayoutOptions) (pieces : List Piece) : Program :=
  (pieces.foldl (Assembly.add o) .empty).flush.chunks.reverse

end TrustedHtml
