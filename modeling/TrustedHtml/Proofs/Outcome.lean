import TrustedHtml.Proofs.Rendered

/-!
# What a Program Puts Out

Two programs can be made of different chunks and still put out the same text. The *outcome* of
a rendering forgets how the text was cut into writes, and which steps led to a failure; what is
left is the text and why it ended early, if it did. Outcomes compose as renderings do, so the
outcome of a program is the outcomes of its chunks one after the other, and writing static text
appends the text, whether it becomes a chunk of its own or is added to the last one.

## Main definitions

* `Rendering.outcome`, `Program.outcome`: text and end.

## Main results

* `Program.outcome_append`: programs one after the other.
* `Assembly.outcome_write`: **static text is appended, however it is cut into chunks.**
-/

namespace TrustedHtml

/-- An abort without the steps that led to it. -/
def Abort.bare : Abort → Abort
  | .failure f => .ofCause f.cause
  | other => other

/-- Where an abort is said to have arisen makes no difference to what it is. -/
theorem Abort.bare_within (step : Step) (e : Abort) : (e.within step).bare = e.bare := by
  cases e <;> rfl

namespace Delivery

/-- Nothing. -/
def nothing : Delivery := ⟨"", none⟩

/-- A text. -/
def ofText (text : String) : Delivery := ⟨text, none⟩

/-- One output after the other; nothing comes after one that ended early. -/
def append (a b : Delivery) : Delivery :=
  match a.stopped with
  | some _ => a
  | none => ⟨a.accepted ++ b.accepted, b.stopped⟩

@[simp] theorem nothing_append (a : Delivery) : nothing.append a = a := by
  simp [append, nothing]

@[simp] theorem append_nothing (a : Delivery) : a.append nothing = a := by
  obtain ⟨accepted, _ | e⟩ := a
  · simp [append, nothing]
  · rfl

/-- Appending is associative. -/
theorem append_assoc (a b c : Delivery) : (a.append b).append c = a.append (b.append c) := by
  obtain ⟨accepted, _ | e⟩ := a
  · obtain ⟨accepted', _ | e'⟩ := b
    · simp [append, String.append_assoc]
    · rfl
  · rfl

/-- Texts one after the other are one text. -/
theorem ofText_append (s t : String) : (ofText s).append (ofText t) = ofText (s ++ t) := rfl

end Delivery

namespace Rendering

/-- The text of a rendering and why it ended early, without the steps that led there. -/
def outcome (r : Rendering) : Delivery :=
  ⟨r.text, r.stopped.map Abort.bare⟩

/-- Where a rendering comes from makes no difference to its outcome. -/
theorem outcome_within (step : Step) (r : Rendering) : (r.within step).outcome = r.outcome := by
  rw [outcome, outcome, text_within]
  obtain ⟨writes, _ | e⟩ := r
  · rfl
  · rw [Rendering.within, Option.map_some, Option.map_some, Option.map_some, e.bare_within]

/-- Renderings one after the other put out one after the other. -/
theorem outcome_append (a b : Rendering) : (a.append b).outcome = a.outcome.append b.outcome := by
  obtain ⟨writes, _ | e⟩ := a
  · have htext := text_append_writes writes b.writes b.stopped none
    rw [append, outcome, htext]
    rfl
  · rfl

/-- A write puts out its text. -/
theorem outcome_write (text : String) : (write text).outcome = .ofText text := by
  simp [outcome, write, Rendering.text, Delivery.ofText]

end Rendering

namespace Program

/-- What a program puts out. -/
def outcome (program : Program) (vs : ValueSet) : Delivery :=
  program.foldr (fun chunk later => (renderChunk chunk vs).outcome.append later) .nothing

variable {program program' : Program} {vs : ValueSet}

/-- Numbers of chunks make no difference to what a program puts out. -/
theorem outcome_renderFrom (count : ℕ) (program : Program) (vs : ValueSet) (number : ℕ) :
    (renderFrom number count program vs).outcome = program.outcome vs := by
  induction program generalizing number with
  | nil => rfl
  | cons chunk rest ih =>
      rw [renderFrom, Rendering.outcome_append, Rendering.outcome_within, ih]
      rfl

/-- What a program puts out is the outcome of carrying it out. -/
theorem outcome_render (program : Program) (vs : ValueSet) :
    (program.render vs).outcome = program.outcome vs :=
  outcome_renderFrom _ program vs 1

/-- Programs one after the other put out one after the other. -/
theorem outcome_append (program rest : Program) (vs : ValueSet) :
    outcome (program ++ rest) vs = (program.outcome vs).append (rest.outcome vs) := by
  induction program with
  | nil => exact (Delivery.nothing_append _).symm
  | cons chunk chunks ih =>
      rw [List.cons_append, outcome, List.foldr_cons, ← outcome, ih, ← Delivery.append_assoc]
      rfl

/-- A single chunk puts out what it puts out. -/
theorem outcome_singleton (chunk : Chunk) (vs : ValueSet) :
    outcome [chunk] vs = (renderChunk chunk vs).outcome :=
  Delivery.append_nothing _

/-- Programs that put out the same for all value sets. -/
def Same (program program' : Program) : Prop :=
  ∀ vs, program.outcome vs = program'.outcome vs

/-- A subsection puts out the same if its program does for every row. -/
theorem outcome_subsection (h : program.Same program') (t : Tag) (vs : ValueSet) :
    (renderChunk (.subsection t program) vs).outcome =
      (renderChunk (.subsection t program') vs).outcome := by
  rw [renderChunk, renderChunk]
  cases vs.getStream t with
  | error m => rfl
  | ok stream =>
      dsimp only
      induction stream.rows with
      | nil => rfl
      | cons row rest ih =>
          rw [List.foldr_cons, List.foldr_cons, Rendering.outcome_append,
            Rendering.outcome_append, outcome_renderFrom, outcome_renderFrom, h row, ih]

/-- Alternatives put out the same if their programs do. -/
theorem outcome_renderOutput {output output' : Option Program}
    (h : Option.Rel Same output output') (vs : ValueSet) :
    (renderOutput output vs).outcome = (renderOutput output' vs).outcome := by
  cases h with
  | none => rfl
  | some hsame =>
      rw [renderOutput, renderOutput, outcome_renderFrom, outcome_renderFrom]
      exact hsame vs

/-- Cases with the same conditions choose alternatives that put out the same, if they choose. -/
theorem outcome_renderCases {cases cases' : List (Condition × Option Program)}
    (h : List.Forall₂ (fun a b => a.1 = b.1 ∧ Option.Rel Same a.2 b.2) cases cases')
    (vs : ValueSet) : Option.Rel (fun a b => a.outcome = b.outcome) (renderCases cases vs)
      (renderCases cases' vs) := by
  induction h with
  | nil => exact .none
  | @cons a b rest rest' hhead _ ih =>
      obtain ⟨condition, output⟩ := a
      obtain ⟨condition', output'⟩ := b
      obtain ⟨hcondition, houtput⟩ := hhead
      obtain rfl : condition = condition' := hcondition
      rw [renderCases, renderCases]
      by_cases hholds : condition vs
      · rw [if_pos hholds, if_pos hholds]
        exact .some (outcome_renderOutput houtput vs)
      · rw [if_neg hholds, if_neg hholds]
        exact ih

/-- A switch puts out the same if its alternatives do. -/
theorem outcome_switch {cases cases' : List (Condition × Option Program)}
    {default default' : Option Program}
    (hcases : List.Forall₂ (fun a b => a.1 = b.1 ∧ Option.Rel Same a.2 b.2) cases cases')
    (hdefault : Option.Rel Same default default') (vs : ValueSet) :
    (renderChunk (.switch cases default) vs).outcome =
      (renderChunk (.switch cases' default') vs).outcome := by
  rw [renderChunk_switch, renderChunk_switch]
  exact getD_of_rel (outcome_renderCases hcases vs) fun _ => outcome_renderOutput hdefault vs

end Program

/-- **Static text is appended** to what a program puts out, however it is cut into chunks. -/
theorem Assembly.outcome_write (o : LayoutOptions) (a : Assembly) (text : String)
    (vs : ValueSet) :
    (a.write o text).program.outcome vs = (a.program.outcome vs).append (.ofText text) := by
  have hstatic : ∀ s, Program.outcome [.static s] vs = .ofText s := fun s => by
    rw [Program.outcome_singleton, Program.renderChunk, Rendering.outcome_write]
  obtain h | ⟨init, last, hbefore, hafter⟩ := a.program_write o text
  · rw [h, Program.outcome_append, hstatic]
  · rw [hbefore, hafter, Program.outcome_append, Program.outcome_append, hstatic, hstatic,
      Delivery.append_assoc, Delivery.ofText_append]

/-- Templates of trees whose programs put out the same render to the same, for values that are
bound to both of them. -/
theorem Node.renderToString_of_same [UrlReader] {node node' : Node} {o o' : LayoutOptions}
    {scope scope' : Scope} {t t' : Template} {next next' : ℕ} {args : List BindArg}
    {vs : ValueSet} (hwf : scope.schema.WellFormed) (hwf' : scope'.schema.WellFormed)
    (hcompile : node.compile o scope = (.ok t, next))
    (hcompile' : node'.compile o' scope' = (.ok t', next')) (hbind : t.bind args = .ok vs)
    (hbind' : t'.bind args = .ok vs) (hsame : t.program.Same t'.program) :
    t.renderToString vs = t'.renderToString vs := by
  have hstopped := (render_shows hwf hcompile hbind).stopped
  have hstopped' := (render_shows hwf' hcompile' hbind').stopped
  have houtcome := hsame vs
  rw [← Program.outcome_render, ← Program.outcome_render] at houtcome
  have htext : (t.program.render vs).text = (t'.program.render vs).text :=
    congrArg Delivery.accepted houtcome
  have hbare : ∀ e : Option Overflow, (e.map Abort.overflow).map Abort.bare = e.map .overflow :=
    fun e => by cases e <;> rfl
  have hend : (t.program.render vs).stopped = (t'.program.render vs).stopped := by
    have hends : (t.program.render vs).stopped.map Abort.bare =
        (t'.program.render vs).stopped.map Abort.bare := congrArg Delivery.stopped houtcome
    rw [hstopped, hstopped', hbare, hbare] at hends
    rw [hstopped, hstopped', hends]
  rw [Template.renderToString, Template.renderToString, Template.render_eq hbind,
    Template.render_eq hbind', htext, hend]

end TrustedHtml
