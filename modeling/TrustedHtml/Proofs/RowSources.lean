import TrustedHtml.Proofs.Outcome
import TrustedHtml.Proofs.Wiring

/-!
# Sources of Rows

Rows of a subsection are either bound as arguments, all of them before anything is written, or
produced by a source while the page is written. Binding them comes down to the same thing: a row
of arguments is a value set that is produced, and binding rows collects the whole source. What
differs is when a failure is noticed. Binding reports it at once, with the number of the row; a
source that fails gives the rows before the failure, and they are written.

What a program with a subsection puts out is therefore cut at three places: in front of the
subsection, behind the rows, and behind the end of the source.

## Main definitions

* `RowStream.collect`: all rows of a source, or the failure of the first that cannot be had.
* `Program.outcomeRows`, `RowStream.ending`: what rows and the end of their source put out.
* `Delivery.Completes`: nothing but an overflow ends an output.
* `Delivery.cause?`: the innermost cause of a failure.

## Main results

* `Binding.applyRows_eq_collect`: **binding rows is collecting what their source produces.**
* `Program.outcome_around`: what a program puts out around the rows of a subsection.
* `Program.Each.forall₂_steps`: the steps of a program go with its sites, one by one.
-/

namespace TrustedHtml

/-- What comes after an operation matters only for what the operation gives. -/
theorem Except.bind_congr_ok {ε α β : Type} {x : Except ε α} {k k' : α → Except ε β}
    (h : ∀ a, x = .ok a → k a = k' a) : x >>= k = x >>= k' := by
  cases x with
  | ok a => exact h a rfl
  | error e => rfl

/-- What comes after an operation that succeeds goes on from its result. -/
theorem Except.bind_of_eq_ok {ε α β : Type} {x : Except ε α} {a : α} {k : α → Except ε β}
    (h : x = .ok a) : x >>= k = k a := by
  rw [h]
  rfl

/-- Nothing comes after an operation that fails. -/
theorem Except.bind_of_eq_error {ε α β : Type} {x : Except ε α} {e : ε} {k : α → Except ε β}
    (h : x = .error e) : x >>= k = .error e := by
  rw [h]
  rfl

/-! ### Streams -/

namespace RowStream

variable {α β : Type}

/-- All rows of a source, the first of which has the given number. A failure is described as
that of the row whose turn it was. -/
def collect (subsection : String) (number count : ℕ) (s : RowStream α) :
    Except Abort (List α) :=
  match s.failure with
  | none => .ok s.rows
  | some f => .error ((Abort.failure f).within (.row (number + s.rows.length) count subsection))

/-- Rows that are produced without a failure come before those that are produced later. -/
theorem ofResults_append (rows : List α) (later : List (Except Abort α)) :
    ofResults (rows.map .ok ++ later) = (do
      let stream ← ofResults later
      return ⟨rows ++ stream.rows, stream.failure⟩) := by
  induction rows with
  | nil =>
      rw [List.map_nil, List.nil_append]
      cases ofResults later <;> rfl
  | cons row rest ih =>
      rw [List.map_cons, List.cons_append, ofResults, ih]
      cases ofResults later <;> rfl

/-- A source that does not fail gives all its rows. -/
theorem ofResults_map_ok (rows : List α) : ofResults (rows.map .ok) = .ok (.ofRows rows) := by
  have h := ofResults_append rows []
  rw [List.append_nil] at h
  rw [h, ofResults]
  exact congrArg (fun all => Except.ok (ofRows all)) (List.append_nil rows)

/-- What is produced without a failure is a list of rows. -/
theorem exists_map_eq_ok {produce : β → Except Abort α} {entries : List β}
    (h : ∀ b ∈ entries, ∃ row, produce b = .ok row) :
    ∃ rows : List α, entries.map produce = rows.map .ok := by
  induction entries with
  | nil => exact ⟨[], rfl⟩
  | cons b rest ih =>
      obtain ⟨⟨row, hrow⟩, hrest⟩ := List.forall_mem_cons.mp h
      obtain ⟨rows, hrows⟩ := ih hrest
      exact ⟨row :: rows, by rw [List.map_cons, hrow, hrows, List.map_cons]⟩

end RowStream

/-! ### Binding -/

namespace Binding

variable [UrlReader]

/-- Arguments are applied one after the other, up to one that fails. -/
theorem bind_eq_foldlM (s : Schema) (args : List BindArg) :
    s.bind args = args.foldlM applyArg s.valueSet := by
  rw [Schema.bind, ValueSet.bindInto]
  generalize s.valueSet = vs
  induction args generalizing vs with
  | nil => rw [applyAll]; rfl
  | cons arg rest ih =>
      rw [applyAll, List.foldlM_cons]
      cases applyArg vs arg with
      | ok ws => exact ih ws
      | error e => rfl

/-- Values that arguments are bound to are fitted. -/
theorem fitted_of_bind {s : Schema} {args : List BindArg} {vs : ValueSet}
    (h : s.bind args = .ok vs) : vs.Fitted := by
  obtain ⟨hfitted, -⟩ := fitted_applyAll (ValueSet.fitted_new s) args
  rwa [Schema.bind_eq_ok_iff.mp h] at hfitted

/-- **Binding rows is collecting what their source produces.** -/
theorem applyRows_eq_collect {α : Type} (child : Schema) (name : String) (count : ℕ)
    (args : α → List BindArg) (entries : List α) (number : ℕ) :
    applyRows child name number count (entries.map args) = (do
      let stream ← RowStream.ofResults (entries.map fun a => child.bind (args a))
      stream.collect name number count) := by
  induction entries generalizing number with
  | nil => rw [List.map_nil, applyRows]; rfl
  | cons a rest ih =>
      rw [List.map_cons, List.map_cons, applyRows, Schema.bind, ValueSet.bindInto]
      obtain ⟨vs, stopped⟩ := applyAll child.valueSet (args a)
      cases stopped with
      | some e => cases e <;> rfl
      | none =>
          dsimp only
          rw [ih, RowStream.ofResults]
          cases RowStream.ofResults (rest.map fun a => child.bind (args a)) with
          | error e => rfl
          | ok stream =>
              obtain ⟨rows, _ | f⟩ := stream
              · rfl
              · simp [RowStream.collect, bind, Except.bind, pure, Except.pure, Nat.add_assoc,
                  Nat.add_comm 1]

/-- Rows that are bound under a name are collected and set. -/
theorem applyArg_rows_eq_collect {α : Type} {vs : ValueSet} (h : vs.schema.InOrder)
    {name : String} {child : Schema} {t : Tag} (hrows : vs.schema.rows? name = some child)
    (hfind : vs.schema.subsection? name = some t) {args : α → List BindArg}
    {produce : α → Except Abort ValueSet} (hproduce : ∀ a, child.bind (args a) = produce a)
    (entries : List α) :
    applyArg vs (.rows (.name name) (entries.map args)) = (do
      let stream ← RowStream.ofResults (entries.map produce)
      let rows ← stream.collect name 1 entries.length
      (vs.setStream t (.ofRows rows)).mapError .misuse) := by
  obtain ⟨t', hfind', -, -, hid, -, -⟩ := h.subsection?_eq hrows
  obtain rfl : t' = t := Option.some.inj (hfind'.symm.trans hfind)
  obtain ⟨t'', hfind'', happly⟩ := applyArg_rows h hrows (entries.map args)
  obtain rfl : t'' = t' := Option.some.inj (hfind''.symm.trans hfind)
  rw [happly, List.length_map, ← funext hproduce, ← bind_assoc, ← applyRows_eq_collect]
  refine Except.bind_congr_ok fun rows hbound => ?_
  rw [ValueSet.setRows_eq_setStream fun row hrow => by
    rw [schema_eq_of_applyRows hbound row hrow, hid]]

/-- A string that is bound under a name, at no level of its own, is stored through the handle of
the name, and binding goes on as it does for any values with the same schema. -/
theorem foldlM_applyArg_named {vs : ValueSet} {s : Schema} {name : String} {v : Var}
    (hs : vs.schema = s) (hfind : s.scalar? name = some v) (value : SafeString)
    {rest : List BindArg} {k : ValueSet → Except Abort ValueSet}
    (hrest : ∀ ws : ValueSet, ws.schema = s → rest.foldlM applyArg ws = k ws) :
    (.scalar (.name name) value .untrusted :: rest).foldlM applyArg vs =
      vs.setScalar v value >>= k := by
  subst hs
  have happly : applyArg vs (.scalar (.name name) value .untrusted) = vs.setScalar v value := by
    rw [applyArg, resolveVar?, hfind]
    rfl
  rw [List.foldlM_cons, happly]
  refine Except.bind_congr_ok fun ws hws => hrest ws ?_
  exact applyArg_schema_eq (happly.trans hws)

end Binding

/-! ### Outputs -/

namespace Delivery

/-- Nothing but an overflow ends an output. -/
def Completes (d : Delivery) : Prop :=
  d.stopped = none ∨ ∃ o, d.stopped = some (.overflow o)

/-- The innermost cause of a failure. -/
def cause? (d : Delivery) : Option Cause :=
  match d.stopped with
  | some (.failure f) => some f.cause
  | _ => none

/-- An output that has a cause has ended. -/
theorem stopped_ne_none {d : Delivery} {c : Cause} (h : d.cause? = some c) : d.stopped ≠ none := by
  intro hnone
  rw [cause?, hnone] at h
  cases h

/-- An output without the steps that led to its end. -/
def bare (d : Delivery) : Delivery :=
  ⟨d.accepted, d.stopped.map Abort.bare⟩

variable {a b d : Delivery}

/-- An output ends or does not, whether the steps are told or not. -/
theorem bare_stopped_eq_none_iff : d.bare.stopped = none ↔ d.stopped = none :=
  Option.map_eq_none_iff

/-- An overflow has no steps. -/
theorem bare_stopped_eq_overflow_iff {o : Overflow} :
    d.bare.stopped = some (.overflow o) ↔ d.stopped = some (.overflow o) := by
  obtain ⟨accepted, _ | _ | _ | o'⟩ := d <;> simp [bare, Abort.bare, Abort.ofCause]

/-- The steps do not tell the cause. -/
theorem cause?_bare : d.bare.cause? = d.cause? := by
  obtain ⟨accepted, _ | _ | _ | o⟩ := d <;> rfl

/-- If there is no overflow, what comes after an output that nothing else can end is put out. -/
theorem append_of_completes (ha : a.Completes)
    (h : ∀ o, (a.append b).stopped ≠ some (.overflow o)) :
    a.append b = ⟨a.accepted ++ b.accepted, b.stopped⟩ := by
  obtain ⟨accepted, stopped⟩ := a
  obtain hnone | ⟨o, hsome⟩ := ha
  · obtain rfl : stopped = none := hnone
    rfl
  · obtain rfl : stopped = some (.overflow o) := hsome
    exact absurd rfl (h o)

end Delivery

/-- The outcome of a rendering that is complete is complete. -/
theorem Rendering.Completes.outcome {r : Rendering} (h : r.Completes) : r.outcome.Completes := by
  obtain hnone | ⟨o, hsome⟩ := h
  · exact .inl (by rw [Rendering.outcome, hnone]; rfl)
  · exact .inr ⟨o, by rw [Rendering.outcome, hsome]; rfl⟩

/-- What a sink without a limit receives is what the program puts out. -/
theorem Template.bare_render {t : Template} {vs : ValueSet} (h : vs.schema.id = t.schema.id) :
    (t.render vs none).bare = t.program.outcome vs := by
  rw [Template.render, if_pos h, Rendering.deliver, Delivery.run_none, String.empty_append,
    ← Program.outcome_render]
  rfl

/-- How a source of rows ends the output. -/
def RowStream.ending {α : Type} (s : RowStream α) : Delivery :=
  ⟨"", s.failure.map fun f => .ofCause f.cause⟩

namespace Program

/-- What a program puts out for rows, one after the other. -/
def outcomeRows (program : Program) (rows : List ValueSet) : Delivery :=
  rows.foldr (fun row later => (program.outcome row).append later) .nothing

/-- One row before other rows. -/
theorem outcomeRows_cons (program : Program) (row : ValueSet) (rest : List ValueSet) :
    program.outcomeRows (row :: rest) = (program.outcome row).append (program.outcomeRows rest) :=
  rfl

/-- Rows after other rows. -/
theorem outcomeRows_append (program : Program) (rows later : List ValueSet) :
    program.outcomeRows (rows ++ later) =
      (program.outcomeRows rows).append (program.outcomeRows later) := by
  induction rows with
  | nil => exact (Delivery.nothing_append _).symm
  | cons row rest ih =>
      rw [List.cons_append, outcomeRows_cons, outcomeRows_cons, ih, Delivery.append_assoc]

/-- A subsection puts out its rows, and then ends as their source does. -/
theorem outcome_subsection_eq {vs : ValueSet} {t : Tag} {stream : RowStream ValueSet}
    (hget : vs.getStream t = .ok stream) (program : Program) :
    outcome [.subsection t program] vs =
      (program.outcomeRows stream.rows).append stream.ending := by
  obtain ⟨rows, failure⟩ := stream
  rw [outcome_singleton, renderChunk, hget]
  clear hget
  dsimp only
  induction rows with
  | nil =>
      rw [outcomeRows, List.foldr_nil, List.foldr_nil, Delivery.nothing_append]
      cases failure <;> rfl
  | cons row rest ih =>
      rw [List.foldr_cons, Rendering.outcome_append, ih, outcome_renderFrom, outcomeRows_cons,
        Delivery.append_assoc]
      rfl

/-- **What a program puts out around the rows of a subsection.** -/
theorem outcome_around {vs : ValueSet} {t : Tag} {stream : RowStream ValueSet}
    (hget : vs.getStream t = .ok stream) (opening program closing : Program) :
    outcome (opening ++ .subsection t program :: closing) vs =
      (opening.outcome vs).append ((program.outcomeRows stream.rows).append
        (stream.ending.append (closing.outcome vs))) := by
  rw [outcome_append, ← List.singleton_append, outcome_append, outcome_subsection_eq hget,
    Delivery.append_assoc]

/-- The steps of a program say where it can be split. -/
theorem exists_split_of_steps {program init : Program} {chunk : Chunk}
    (h : program.steps = init ++ [chunk]) :
    ∃ opening closing : Program, program = opening ++ chunk :: closing ∧ opening.steps = init := by
  rw [steps, List.filter_eq_append_iff] at h
  obtain ⟨before, later, rfl, hbefore, hlater⟩ := h
  obtain ⟨statics, closing, rfl, hstatics, -, -⟩ := List.filter_eq_cons_iff.mp hlater
  refine ⟨before ++ statics, closing, (List.append_assoc _ _ _).symm, ?_⟩
  rw [steps, List.filter_append, hbefore, List.filter_eq_nil_iff.mpr hstatics, List.append_nil]

/-- What a program puts out depends on strings only, if its steps write nothing else. -/
theorem outcome_congr_values {program : Program} {vs vs' : ValueSet}
    (hsteps : ∀ chunk ∈ program.steps, ∃ v reflow, chunk = .scalar v reflow)
    (hschema : vs.schema = vs'.schema) (hvalues : vs.values = vs'.values) :
    program.outcome vs = program.outcome vs' := by
  obtain ⟨schema, values, streams⟩ := vs
  obtain ⟨_, _, streams'⟩ := vs'
  obtain rfl := hschema
  obtain rfl := hvalues
  induction program with
  | nil => rfl
  | cons chunk rest ih =>
      have hrest := ih fun later hlater => hsteps later <| by
        rw [steps, List.mem_filter] at hlater ⊢
        exact ⟨List.mem_cons_of_mem _ hlater.1, hlater.2⟩
      have hsame : renderChunk chunk ⟨schema, values, streams⟩ =
          renderChunk chunk ⟨schema, values, streams'⟩ := by
        cases hstatic : chunk.isStatic with
        | true =>
            cases chunk with
            | static text => rw [renderChunk, renderChunk]
            | _ => cases hstatic
        | false =>
            obtain ⟨v, reflow, rfl⟩ := hsteps chunk <|
              List.mem_filter.mpr ⟨List.mem_cons_self, by rw [hstatic]; rfl⟩
            rw [renderChunk, renderChunk]
            rfl
      rw [outcome, List.foldr_cons, hsame]
      exact congrArg _ hrest

section Sites

variable {P : Place → Var → Var → ValueSet → List BindArg → Prop} {vs : ValueSet}
  {args : List BindArg} {chunk : Chunk}

/-- The chunk for a use of a variable reads a variable. -/
theorem EachChunk.exists_eq_scalar {place : Place} {v : Var}
    (h : EachChunk P (.scalar place v) chunk vs args) : ∃ w reflow, chunk = .scalar w reflow := by
  cases h with
  | scalar _ => exact ⟨_, _, rfl⟩

/-- The chunk for a subsection repeats a program for its rows. -/
theorem EachChunk.exists_eq_subsection {name : String} {sites : List Site}
    (h : EachChunk P (.subsection name sites) chunk vs args) :
    ∃ t program, chunk = .subsection t program := by
  generalize hsite : Site.subsection name sites = site at h
  cases h with
  | subsection _ _ => exact ⟨_, _, rfl⟩
  | _ => cases hsite

/-- The steps of a program go with its sites, one by one. -/
theorem Each.forall₂_steps {sites : List Site} {program : Program}
    (h : Each P sites program vs args) :
    List.Forall₂ (fun site chunk => EachChunk P site chunk vs args) sites program.steps := by
  induction program generalizing sites with
  | nil =>
      cases h
      exact .nil
  | cons chunk rest ih =>
      cases h with
      | static hrest => exact ih hrest
      | step hchunk hrest =>
          have hstep : chunk.isStatic = false := by cases hchunk <;> rfl
          rw [steps, List.filter_cons, hstep]
          exact .cons hchunk (ih hrest)

end Sites

end Program

end TrustedHtml
