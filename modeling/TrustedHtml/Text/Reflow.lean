import TrustedHtml.Counter
import TrustedHtml.Text.Blank

/-!
# Reflowing Text

A text is reflowed by placing its words one after the other: a word goes onto the current
line if the line, extended by a space and the word, is at most `width` characters long, and
otherwise starts a new line. Every line is counted with its indentation, the first one too,
although its indentation is not written. A word wider than the line stays whole.

## Main definitions

* `Reflow` — width, depth and unit of indentation.
* `Filling.place` — one word is placed.
* `Reflow.append` — a reflowed text is appended to what is already written.
* `Reflow.apply` — a reflowed text on its own.
-/

namespace TrustedHtml

/-- `n` copies of `unit`. -/
def Text.copies (n : Nat) (unit : String) : String :=
  if unit.isEmpty then "" else String.join (List.replicate n unit)

/-- How a text is reflowed: to lines of at most `width` characters, each of them after the
first preceded by `depth` copies of `indent`. Width 0 leaves a text as it is. -/
structure Reflow where
  width : Nat
  depth : Nat
  indent : String
deriving DecidableEq, Repr

/-- A text while its words are being placed. -/
structure Filling where
  /-- What has been written. -/
  written : String
  /-- The length of the current line, its indentation included. -/
  column : Nat
  /-- Whether a word stands on the current line. -/
  started : Bool
deriving DecidableEq, Repr

namespace Reflow

/-- The column at which every line starts. -/
def margin (r : Reflow) : Except Overflow Nat :=
  Counter.mul r.depth r.indent.length

/-- What is written between two lines. -/
def lineBreak (r : Reflow) : String :=
  "\n" ++ Text.copies r.depth r.indent

end Reflow

/-- Place one word: at the start of the text, behind a space, or on a line of its own. -/
def Filling.place (r : Reflow) (margin : Nat) (f : Filling) (word : String) :
    Except Overflow Filling := do
  if f.started then
    let reached ← Counter.add (← Counter.add f.column 1) word.length
    if reached > r.width then
      let column ← Counter.add margin word.length
      return ⟨f.written ++ r.lineBreak ++ word, column, true⟩
    else
      return ⟨f.written ++ " " ++ word, reached, true⟩
  else
    let column ← Counter.add f.column word.length
    return ⟨f.written ++ word, column, true⟩

namespace Reflow

/-- Append `text` to `written`, reflowed. -/
def append (r : Reflow) (written text : String) : Except Overflow String := do
  if r.width = 0 then
    return written ++ text
  else
    let margin ← r.margin
    let filled ← (Text.words text).foldlM (Filling.place r margin) ⟨written, margin, false⟩
    return filled.written

/-- The reflowed text. -/
def apply (r : Reflow) (text : String) : Except Overflow String :=
  r.append "" text

end Reflow

end TrustedHtml
