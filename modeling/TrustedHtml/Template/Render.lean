import TrustedHtml.Binding.Bind
import TrustedHtml.Template.Basic

/-!
# Rendering

Carrying out a program with a value set yields a sequence of writes, each of them one static
text or one value, which ends early if a source of rows fails. A sink takes the writes one by
one, each as a whole, until one does not fit.

## Main definitions

* `Write` — a text, and the place in the program it comes from.
* `Rendering` — the writes of a program, and why it ended early, if it did.
* `Program.render` — carries out a program.
* `Rendering.deliver` — gives the writes to a sink.
* `Template.render`, `Template.generate` — a whole template into a sink.
-/

namespace TrustedHtml

/-- One write. -/
structure Write where
  text : String
  /-- The steps that lead to the chunk the text comes from, outermost first. -/
  steps : List Step

/-- The writes of a program, and why it ended early. -/
structure Rendering where
  writes : List Write
  stopped : Option Abort

namespace Rendering

/-- No writes. -/
def empty : Rendering := ⟨[], none⟩

/-- A single write. -/
def write (text : String) : Rendering := ⟨[⟨text, []⟩], none⟩

/-- An end without a write. -/
def stop (e : Abort) : Rendering := ⟨[], some e⟩

/-- One rendering after the other; nothing comes after one that ended early. -/
def append (a b : Rendering) : Rendering :=
  match a.stopped with
  | some _ => a
  | none => ⟨a.writes ++ b.writes, b.stopped⟩

/-- Describe everything as coming from `step`. -/
def within (step : Step) (r : Rendering) : Rendering :=
  ⟨r.writes.map fun w => { w with steps := step :: w.steps }, r.stopped.map (·.within step)⟩

end Rendering

namespace Program

mutual

/-- Carry out one chunk. -/
def renderChunk : Chunk → ValueSet → Rendering
  | .static text, _ => .write text
  | .scalar v reflow, vs =>
    match vs.getScalar v with
    | .error m => .stop (.misuse m)
    | .ok text =>
      match reflow with
      | none => .write text
      | some r =>
        match r.apply text with
        | .ok filled => .write filled
        | .error o => .stop (.overflow o)
  | .subsection t program, vs =>
    match vs.getStream t with
    | .error m => .stop (.misuse m)
    | .ok stream =>
      let ending := match stream.failure with
        | some f => Rendering.stop (.failure f)
        | none => .empty
      stream.rows.foldr (fun row later => (renderFrom 1 program.length program row).append later)
        ending
  | .switch cases default, vs =>
    match renderCases cases vs with
    | some chosen => chosen
    | none => renderOutput default vs

/-- Carry out chunks, the first of which has the given number. -/
def renderFrom (number count : Nat) : List Chunk → ValueSet → Rendering
  | [], _ => .empty
  | chunk :: rest, vs =>
    ((renderChunk chunk vs).within (.chunk number count)).append
      (renderFrom (number + 1) count rest vs)

/-- Carry out the first case that holds, if one does. -/
def renderCases : List (Condition × Option (List Chunk)) → ValueSet → Option Rendering
  | [], _ => none
  | (condition, output) :: rest, vs =>
    if condition vs then some (renderOutput output vs) else renderCases rest vs

/-- Carry out the program of an alternative, if it has one. -/
def renderOutput : Option (List Chunk) → ValueSet → Rendering
  | none, _ => .empty
  | some program, vs => renderFrom 1 program.length program vs

end

/-- Carry out a program. -/
def render (program : Program) (vs : ValueSet) : Rendering :=
  renderFrom 1 program.length program vs

end Program

/-! ### Sinks -/

/-- What a sink has accepted, and why the output ended early. -/
structure Delivery where
  accepted : String
  stopped : Option Abort

/-- Whether a sink with a limit accepts a write after `size` bytes. -/
def Write.fits (limit : Option Nat) (size : Nat) (w : Write) : Bool :=
  limit.all (size + w.text.utf8ByteSize ≤ ·)

/-- Give writes to a sink that has accepted `accepted`. The first write that would take it
over its limit is refused, and none comes after it. -/
def Delivery.run (limit : Option Nat) (stopped : Option Abort) (accepted : String) :
    List Write → Delivery
  | [] => ⟨accepted, stopped⟩
  | w :: rest =>
    if w.fits limit accepted.utf8ByteSize then run limit stopped (accepted ++ w.text) rest
    else ⟨accepted, some (.failure ⟨.sinkClosed, w.steps⟩)⟩

/-- Give the writes of a rendering to a sink. -/
def Rendering.deliver (r : Rendering) (limit : Option Nat) : Delivery :=
  Delivery.run limit r.stopped "" r.writes

namespace Template

/-- A new value set for a template. -/
def valueSet (t : Template) : ValueSet :=
  t.schema.valueSet

/-- Render values, which have to be made for the schema of the template. -/
def render (t : Template) (vs : ValueSet) (limit : Option Nat) : Delivery :=
  if vs.schema.id = t.schema.id then (t.program.render vs).deliver limit
  else ⟨"", some (.misuse (.foreignValues vs.schema.id t.schema.id))⟩

variable [UrlReader]

/-- A new value set with arguments applied. -/
def bind (t : Template) (args : List BindArg) : Except Abort ValueSet :=
  t.schema.bind args

/-- Bind arguments and render. -/
def generate (t : Template) (args : List BindArg) (limit : Option Nat) : Delivery :=
  match t.bind args with
  | .ok vs => t.render vs limit
  | .error e => ⟨"", some e⟩

end Template

end TrustedHtml
