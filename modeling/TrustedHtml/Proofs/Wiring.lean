import TrustedHtml.Proofs.Rendered
import TrustedHtml.Proofs.Session
import TrustedHtml.Proofs.TrustSoundness

/-!
# Wiring

Handles get into the chunks of a program while the schema is still growing, rows get into value
sets through their identities, and both meet when a program is carried out. A program is *wired*
to a schema if what its handles tell is true of it, at every level of nesting: a variable belongs
to the schema of its surroundings and has its name there, and a subsection leads to the schema
that its program is wired to. Values are *fitted* if the rows of every subsection are values for
the schema that stands there, and no source of rows fails.

Every template of a session is wired to its schema, and values that are made in a session are
fitted. Carrying out a wired program with fitted values for its schema cannot fail, whatever the
order in which all of this came about.

## Main definitions

* `Chunk.Wired`, `Program.Wired`: handles of a program are those of a schema.
* `Session.Makes`: values that are made by storing and binding.
* `ValueSet.Fitted`: rows are values for the schemas of their subsections.

## Main results

* `Node.Compiles.wired`: programs are wired to the schema in which they are compiled.
* `Session.Makes.fitted`: values that are made are fitted.
* `Session.Reached.render_completes`: **rendering does not fail.**
-/

namespace TrustedHtml

/-! ### Wired programs -/

/-- **A chunk is wired to a schema**: so are its handles, and its programs are wired to it, or to
the schema of the rows. -/
inductive Chunk.Wired : Schema → Chunk → Prop
  | static {s : Schema} {text : String} : Wired s (.static text)
  | scalar {s : Schema} {v : Var} {reflow : Option Reflow} (attached : v.schema = some s.id)
      (has : s.Has v) : Wired s (.scalar v reflow)
  | subsection {s d : Schema} {t : Tag} {program : Program} (parent : t.parent = s.id)
      (rows : s.subsections[t.index]? = some (t, d)) (child : t.child = d.id)
      (wired : ∀ chunk ∈ program, Wired d chunk) : Wired s (.subsection t program)
  | switch {s : Schema} {cases : List (Condition × Option Program)} {default : Option Program}
      (outputs : ∀ condition program, (condition, some program) ∈ cases →
        ∀ chunk ∈ program, Wired s chunk)
      (otherwise : ∀ program, default = some program → ∀ chunk ∈ program, Wired s chunk) :
      Wired s (.switch cases default)

/-- **A program is wired to a schema** if all of its chunks are. -/
def Program.Wired (s : Schema) (program : Program) : Prop :=
  ∀ chunk ∈ program, chunk.Wired s

namespace Program

variable {s : Schema} {program later : Program}

/-- No chunks. -/
theorem Wired.nil : Wired s [] :=
  nofun

/-- Programs one after the other. -/
theorem Wired.append (h : Wired s program) (h' : Wired s later) : Wired s (program ++ later) := by
  intro chunk hchunk
  exact (List.mem_append.mp hchunk).elim (h chunk) (h' chunk)

/-- A program is wired if the steps among its pieces are. -/
theorem Wired.of_pieces {o : LayoutOptions} {found : List Piece}
    (h : Wired s (found.flatMap Piece.steps)) : Wired s (assemble o found) := by
  intro chunk hchunk
  cases hstatic : chunk.isStatic with
  | true =>
      cases chunk with
      | static text => exact .static
      | _ => cases hstatic
  | false =>
      refine h chunk ?_
      rw [← steps_assemble o, steps, List.mem_filter, hstatic]
      exact ⟨hchunk, rfl⟩

end Program

/-- A variable that is offered is wired. -/
theorem Schema.Offers.wired {f : Schema} {w : Var} {name : SlotName} {level : TrustLevel}
    (h : f.Offers w name level) (reflow : Option Reflow) :
    Program.Wired f (Piece.step (.scalar w reflow)).steps := by
  obtain ⟨hattached, rfl, slot, hslot, hname, -⟩ := h
  intro chunk hchunk
  obtain rfl := List.mem_singleton.mp hchunk
  exact .scalar hattached ⟨slot, hslot, hname⟩

section

variable [UrlReader] {f : Schema} {o : LayoutOptions}

/-- A value at a place is wired. -/
theorem Value.Compiles.wired {level : TrustLevel} {value : Value} {piece : Piece}
    (h : value.Compiles f level piece) : Program.Wired f piece.steps := by
  cases h with
  | concrete hcheck => exact .nil
  | deferred hoffer => exact hoffer.wired none

/-- A text is wired. -/
theorem Value.TextCompiles.wired {depth : ℕ} {width : Option ℕ} {value : Value} {piece : Piece}
    (h : value.TextCompiles o f depth width piece) : Program.Wired f piece.steps := by
  cases h with
  | concrete hcheck hreflow => exact .nil
  | deferred hoffer => exact hoffer.wired _

/-- Attributes are wired. -/
theorem Attribute.wired_of_forall₂ {attributes : List Attribute} {each : List (List Piece)}
    (h : List.Forall₂ (Attribute.Compiles f) attributes each) :
    Program.Wired f (each.flatten.flatMap Piece.steps) := by
  induction h with
  | nil => exact .nil
  | cons hattribute _ ih =>
      obtain ⟨-, hvalue⟩ := hattribute
      rw [List.flatten_cons, List.flatMap_append]
      exact .append (.append .nil (.append hvalue.wired .nil)) ih

/-- An opening tag is wired. -/
theorem Element.OpeningCompiles.wired {e : Element} {opening : List Piece}
    (h : e.OpeningCompiles f opening) : Program.Wired f (opening.flatMap Piece.steps) := by
  obtain ⟨hattributes⟩ := h
  have hwired := Attribute.wired_of_forall₂ hattributes
  simpa [Piece.steps] using hwired

namespace Node

mutual

/-- **The pieces of a tree are wired** to the schema of its surroundings. -/
theorem Compiles.wired {f : Schema} {depth : ℕ} {node : Node} {found : List Piece}
    (h : f.InOrder) : node.Compiles o f depth found → Program.Wired f (found.flatMap Piece.steps)
  | .closed (e := e) _ _ hopening => by
      rw [List.flatMap_append, e.steps_startPieces]
      exact hopening.wired
  | .paired (e := e) _ _ hopening hbody => by
      simp only [List.flatMap_append, e.steps_startPieces, e.steps_breakPieces, List.append_nil,
        List.nil_append, List.flatMap_singleton, Piece.steps]
      exact hopening.wired.append (hbody.wired h)
  | .text hvalue => by
      rw [List.flatMap_singleton]
      exact hvalue.wired
  | .raw hvalue => by
      rw [List.flatMap_singleton]
      exact hvalue.wired
  | .multi hbody => hbody.wired h
  | .subsection (t := t) (d := d) _ hrows hfound => by
      intro chunk hchunk
      obtain rfl := List.mem_singleton.mp hchunk
      have hmem := List.mem_of_getElem? hrows
      obtain ⟨hids, hlinks⟩ := h.linked
      have hd : d.InOrder := ⟨h.wellFormed.child hmem, hlinks _ hmem⟩
      exact .subsection (h.wellFormed.coherent.tag_at hrows).2 hrows (hids _ hmem)
        (Program.Wired.of_pieces (hfound.wired hd))
  | .switch hcases hdefault => by
      intro chunk hchunk
      obtain rfl := List.mem_singleton.mp hchunk
      exact .switch (hcases.wired h) (hdefault.wired h)

/-- The pieces of children are wired. -/
theorem ChildrenCompile.wired {f : Schema} {depth : ℕ} {contents : List Node}
    {found : List Piece} (h : f.InOrder) : ChildrenCompile o f depth contents found →
      Program.Wired f (found.flatMap Piece.steps)
  | .nil => .nil
  | .cons hchild hrest => by
      rw [List.flatMap_append]
      exact (hchild.wired h).append (hrest.wired h)

/-- The programs of cases are wired. -/
theorem CasesCompile.wired {f : Schema} {depth : ℕ} {cases : List (Condition × Option Node)}
    {programs : List (Condition × Option Program)} (h : f.InOrder) :
    CasesCompile o f depth cases programs →
      ∀ condition program, (condition, some program) ∈ programs → Program.Wired f program
  | .nil => nofun
  | .cons houtput hrest => by
      intro condition program hmem
      rcases List.mem_cons.mp hmem with heq | hmem
      · exact houtput.wired h program (congrArg Prod.snd heq).symm
      · exact hrest.wired h condition program hmem

/-- The program of an alternative is wired. -/
theorem OutputCompiles.wired {f : Schema} {depth : ℕ} {output : Option Node}
    {program : Option Program} (h : f.InOrder) : OutputCompiles o f depth output program →
      ∀ chosen, program = some chosen → Program.Wired f chosen
  | .none => nofun
  | .some hfound => by
      intro chosen hchosen
      cases hchosen
      exact .of_pieces (hfound.wired h)

end

end Node

/-- **The templates of a session are wired** to their schemas. -/
theorem Session.Reached.wired {σ : Session} (hσ : σ.Reached) :
    ∀ t, .template t ∈ σ.holders → t.program.Wired t.schema := by
  induction hσ with
  | start next => exact nofun
  | @step σ τ hσ hstep ih =>
      have hvalid := hσ.valid
      have hvalid' := hvalid.step hstep
      cases hstep with
      | newRoot =>
          intro t ht
          rcases List.mem_append.mp ht with ht | ht
          · exact ih t ht
          · cases List.mem_singleton.mp ht
      | call hdraft htags =>
          intro t ht
          rcases List.mem_or_eq_of_mem_set ht with ht | ht
          · exact ih t ht
          · cases ht
      | @compile i s node o t' next hdraft hcompile =>
          intro t ht
          rcases List.mem_or_eq_of_mem_set ht with hold | hnew
          · exact ih t hold
          · cases hnew
            have hdraft' := hvalid.inOrder _ (List.mem_of_getElem? hdraft)
            obtain ⟨-, -, found, hfound, hprogram⟩ :=
              Node.compiles_of_compile hdraft'.wellFormed hcompile
            rw [hprogram]
            exact .of_pieces (hfound.wired (hvalid'.inOrder _ ht))
      | refuse hdraft hcompile =>
          intro t ht
          exact ih t (List.mem_of_mem_eraseIdx ht)
      | giveVar hs hv hlevel => exact ih
      | giveTag hs hsub => exact ih

end

/-! ### Fitted values -/

/-- **Values are fitted**: every row of a subsection is made of values for the schema at its
place, and no source of rows fails. -/
inductive ValueSet.Fitted : ValueSet → Prop
  | intro {vs : ValueSet} (failure : ∀ i, (vs.streamAt i).failure = none)
      (schemas : ∀ i, ∀ row ∈ (vs.streamAt i).rows,
        ∃ sub, vs.schema.subsections[i]? = some sub ∧ row.schema = sub.2)
      (rows : ∀ i, ∀ row ∈ (vs.streamAt i).rows, Fitted row) : Fitted vs

namespace ValueSet

variable {vs vs' : ValueSet}

/-- New values are fitted. -/
theorem fitted_new (s : Schema) : s.valueSet.Fitted :=
  .intro (fun _ => rfl) (fun _ _ h => absurd h List.not_mem_nil)
    fun _ _ h => absurd h List.not_mem_nil

/-- Strings do not matter. -/
theorem Fitted.store (h : vs.Fitted) {v : Var} {text : String}
    (hstore : vs.store v text = .ok vs') : vs'.Fitted := by
  obtain ⟨hschema, hstreams, -⟩ := store_eq_ok hstore
  have hat : ∀ i, vs'.streamAt i = vs.streamAt i := by
    intro i
    rw [streamAt, streamAt, hstreams]
  obtain ⟨failure, schemas, rows⟩ := h
  simp only [← hat, ← hschema] at failure schemas rows
  exact .intro failure schemas rows

/-- Rows that are fitted values for the schema at their place can be set. -/
theorem Fitted.setStream (h : vs.Fitted) {t : Tag} {rows : List ValueSet}
    (hset : vs.setStream t (.ofRows rows) = .ok vs') {sub : Tag × Schema}
    (hsub : vs.schema.subsections[t.index]? = some sub)
    (hrows : ∀ row ∈ rows, row.Fitted ∧ row.schema = sub.2) : vs'.Fitted := by
  obtain ⟨-, hschema, -, hat⟩ := setStream_eq_ok hset
  obtain ⟨failure, schemas, fitted⟩ := h
  refine .intro (fun i => ?_) (fun i row hrow => ?_) fun i row hrow => ?_
  · rw [hat]
    split
    · rfl
    · exact failure i
  · rw [hat] at hrow
    rw [hschema]
    split at hrow
    · rename_i hi
      exact ⟨sub, hi ▸ hsub, (hrows row hrow).2⟩
    · exact schemas i row hrow
  · rw [hat] at hrow
    split at hrow
    · exact (hrows row hrow).1
    · exact fitted i row hrow

/-- Storing a string leaves the schema as it is, and the values fitted. -/
theorem Fitted.setScalarRequiring [UrlReader] (h : vs.Fitted) {v : Var} {value : SafeString}
    {extra : TrustLevel} (hset : vs.setScalarRequiring v value extra = .ok vs') : vs'.Fitted := by
  obtain ⟨_, _, -, -, hstore⟩ := setScalarRequiring_eq_ok hset
  exact h.store hstore

end ValueSet

namespace Binding

variable [UrlReader]

mutual

/-- One argument leaves values fitted. -/
theorem fitted_applyArg {vs vs' : ValueSet} (h : vs.Fitted) : ∀ {arg : BindArg},
    applyArg vs arg = .ok vs' → vs'.Fitted
  | .scalar key value level, happly => by
      rw [applyArg] at happly
      split at happly
      · exact h.setScalarRequiring happly
      · exact undeclared_eq_ok happly ▸ h
  | .rows key given, happly => by
      rw [applyArg] at happly
      obtain ⟨resolved, -, happly⟩ := Except.bind_eq_ok.mp happly
      cases resolved with
      | none => exact undeclared_eq_ok happly ▸ h
      | some t =>
          obtain ⟨child, hchild, happly⟩ := Except.bind_eq_ok.mp happly
          obtain ⟨bound, hbound, hset⟩ := Except.bind_eq_ok.mp happly
          rw [Except.mapError_eq_ok] at hchild hset
          obtain ⟨-, sub, hsub, rfl⟩ := Schema.child_eq_ok hchild
          obtain ⟨-, hstream⟩ := ValueSet.setStream_of_setRows hset
          exact h.setStream hstream hsub (fitted_applyRows hbound)

/-- The rows that are made are fitted values for their schema. -/
theorem fitted_applyRows {child : Schema} {name : String} {number count : ℕ} :
    ∀ {given : List (List BindArg)} {bound : List ValueSet},
      applyRows child name number count given = .ok bound →
        ∀ row ∈ bound, row.Fitted ∧ row.schema = child
  | [], bound, h => by
      rw [applyRows] at h
      cases h
      exact nofun
  | args :: rest, bound, h => by
      rw [applyRows] at h
      have hfirst := fitted_applyAll (ValueSet.fitted_new child) args
      split at h
      rename_i vs stopped happly
      rw [happly] at hfirst
      split at h
      · cases h
      · obtain ⟨later, hlater, hpure⟩ := Except.bind_eq_ok.mp h
        cases hpure
        exact List.forall_mem_cons.mpr ⟨hfirst, fitted_applyRows hlater⟩

/-- Arguments leave values fitted, whether they are all applied or not. -/
theorem fitted_applyAll {vs : ValueSet} (h : vs.Fitted) : ∀ args : List BindArg,
    (applyAll vs args).1.Fitted ∧ (applyAll vs args).1.schema = vs.schema
  | [] => by
      rw [applyAll]
      exact ⟨h, rfl⟩
  | arg :: rest => by
      rw [applyAll]
      cases happly : applyArg vs arg with
      | error e => exact ⟨h, rfl⟩
      | ok mid =>
          obtain ⟨hfitted, hschema⟩ := fitted_applyAll (fitted_applyArg h happly) rest
          exact ⟨hfitted, hschema.trans (applyArg_schema_eq happly)⟩

end

end Binding

/-! ### Values that are made in a session -/

namespace Session

variable {σ : Session}

/-- Rows that carry the identity that a handle tells are rows of the schema at its place. -/
theorem Valid.fitted_setStream (hσ : σ.Valid) {vs vs' : ValueSet} {t : Tag} {rows : List ValueSet}
    (h : vs.Fitted) (hschema : vs.schema ∈ σ.schemas)
    (hrows : ∀ row ∈ rows, row.Fitted ∧ row.schema ∈ σ.schemas)
    (hids : ∀ row ∈ rows, row.schema.id = t.child) (ht : t ∈ σ.tags)
    (hset : vs.setStream t (.ofRows rows) = .ok vs') : vs'.Fitted ∧ vs'.schema ∈ σ.schemas := by
  obtain ⟨hparent, hschema', -⟩ := ValueSet.setStream_eq_ok hset
  obtain ⟨d, hsub⟩ := (hσ.tags t ht).2 _ hschema hparent.symm
  have hmem := List.mem_of_getElem? hsub
  obtain ⟨hlinks, -⟩ := (hσ.inOrder_of_mem hschema).linked
  refine ⟨h.setStream hset hsub fun row hrow => ⟨(hrows row hrow).1, ?_⟩, hschema' ▸ hschema⟩
  refine hσ.eq_of_id_eq (hrows row hrow).2 (rows_mem_schemas hschema hmem) ?_
  exact (hids row hrow).trans (hlinks _ hmem)

variable [UrlReader]

/-- **Values that are made in a session**, for any of its schemas: by binding, of which an
argument that fails can be the end, by storing strings, and by setting rows that were made in the
session as well, from memory or from a source of rows. -/
inductive Makes (σ : Session) : ValueSet → Prop
  | new {s : Schema} (hs : s ∈ σ.schemas) : Makes σ s.valueSet
  | bindInto {vs : ValueSet} (h : Makes σ vs) (args : List BindArg) : Makes σ (vs.bindInto args).1
  | setScalar {vs vs' : ValueSet} {v : Var} {value : SafeString} (h : Makes σ vs)
      (hset : vs.setScalar v value = .ok vs') : Makes σ vs'
  | setConst {vs vs' : ValueSet} {v : Var} {text : String} (h : Makes σ vs)
      (hset : vs.setConst v text = .ok vs') : Makes σ vs'
  | setRows {vs vs' : ValueSet} {t : Tag} {rows : List ValueSet} (h : Makes σ vs)
      (hrows : ∀ row ∈ rows, Makes σ row) (ht : t ∈ σ.tags)
      (hset : vs.setRows t rows = .ok vs') : Makes σ vs'
  /-- A source that gives rows for the schema of the subsection, and does not fail. -/
  | setStream {vs vs' : ValueSet} {t : Tag} {rows : List ValueSet} (h : Makes σ vs)
      (hrows : ∀ row ∈ rows, Makes σ row) (hids : ∀ row ∈ rows, row.schema.id = t.child)
      (ht : t ∈ σ.tags) (hset : vs.setStream t (.ofRows rows) = .ok vs') : Makes σ vs'

/-- What binding arguments yields is made in the session. -/
theorem Makes.bind {s : Schema} (hs : s ∈ σ.schemas) {args : List BindArg} {vs : ValueSet}
    (hbind : s.bind args = .ok vs) : σ.Makes vs := by
  have hmakes := (Makes.new hs).bindInto args
  rwa [ValueSet.bindInto, Schema.bind_eq_ok_iff.mp hbind] at hmakes

/-- **Values that are made in a session are fitted.** -/
theorem Makes.fitted (hσ : σ.Valid) {vs : ValueSet} (h : σ.Makes vs) :
    vs.Fitted ∧ vs.schema ∈ σ.schemas := by
  induction h with
  | new hs => exact ⟨ValueSet.fitted_new _, hs⟩
  | bindInto _ args ih =>
      obtain ⟨hfitted, hschema⟩ := Binding.fitted_applyAll ih.1 args
      exact ⟨hfitted, hschema ▸ ih.2⟩
  | setScalar _ hset ih =>
      obtain ⟨_, _, -, -, hstore⟩ := ValueSet.setScalarRequiring_eq_ok hset
      exact ⟨ih.1.store hstore, (ValueSet.store_eq_ok hstore).1 ▸ ih.2⟩
  | setConst _ hset ih =>
      obtain ⟨_, -, hstore⟩ := Except.bind_eq_ok.mp hset
      exact ⟨ih.1.store hstore, (ValueSet.store_eq_ok hstore).1 ▸ ih.2⟩
  | setRows _ _ ht hset ih ihrows =>
      obtain ⟨hids, hstream⟩ := ValueSet.setStream_of_setRows hset
      exact hσ.fitted_setStream ih.1 ih.2 ihrows hids ht hstream
  | setStream _ _ hids ht hset ih ihrows => exact hσ.fitted_setStream ih.1 ih.2 ihrows hids ht hset

end Session

/-! ### Rendering -/

/-- **A rendering is complete** unless a counter overflows. -/
def Rendering.Completes (r : Rendering) : Prop :=
  r.stopped = none ∨ ∃ o, r.stopped = some (.overflow o)

namespace Rendering

variable {a b : Rendering}

/-- One rendering after the other. -/
theorem Completes.append (ha : a.Completes) (hb : b.Completes) : (a.append b).Completes := by
  obtain ⟨writes, stopped⟩ := a
  obtain hnone | ⟨o, hsome⟩ := ha
  · obtain rfl : stopped = none := hnone
    exact hb
  · obtain rfl : stopped = some (.overflow o) := hsome
    exact .inr ⟨o, rfl⟩

/-- Where a rendering comes from does not matter. -/
theorem Completes.within (h : a.Completes) (step : Step) : (a.within step).Completes := by
  obtain hnone | ⟨o, hsome⟩ := h
  · exact .inl (by rw [Rendering.within, hnone]; rfl)
  · exact .inr ⟨o, by rw [Rendering.within, hsome]; rfl⟩

/-- Rows one after the other. -/
theorem completes_rows {rows : List ValueSet} {render : ValueSet → Rendering}
    (h : ∀ row ∈ rows, (render row).Completes) :
    (rows.foldr (fun row later => (render row).append later) .empty).Completes := by
  induction rows with
  | nil => exact .inl rfl
  | cons row rest ih =>
      obtain ⟨hrow, hrest⟩ := List.forall_mem_cons.mp h
      exact hrow.append (ih hrest)

end Rendering

namespace Program

/-- Chunks one after the other. -/
theorem completes_renderFrom {vs : ValueSet} {program : Program} (number count : ℕ)
    (h : ∀ chunk ∈ program, (renderChunk chunk vs).Completes) :
    (renderFrom number count program vs).Completes := by
  induction program generalizing number with
  | nil => exact .inl rfl
  | cons chunk rest ih =>
      obtain ⟨hchunk, hrest⟩ := List.forall_mem_cons.mp h
      exact (hchunk.within _).append (ih (number + 1) hrest)

/-- The case that is chosen, if one is. -/
theorem completes_renderCases {vs : ValueSet} {cases : List (Condition × Option Program)}
    (h : ∀ condition program, (condition, some program) ∈ cases →
      ∀ chunk ∈ program, (renderChunk chunk vs).Completes) :
    ∀ chosen, renderCases cases vs = some chosen → chosen.Completes := by
  induction cases with
  | nil => exact nofun
  | cons first rest ih =>
      obtain ⟨condition, output⟩ := first
      intro chosen hchosen
      rw [renderCases] at hchosen
      split at hchosen
      · cases hchosen
        cases output with
        | none => exact .inl rfl
        | some program =>
            exact completes_renderFrom 1 _ (h condition program List.mem_cons_self)
      · refine ih (fun condition program hmem => ?_) chosen hchosen
        exact h condition program (List.mem_cons_of_mem _ hmem)

/-- **Carrying out a wired chunk** with fitted values for its schema does not fail. -/
theorem completes_renderChunk {s : Schema} {chunk : Chunk} (hwired : chunk.Wired s)
    {vs : ValueSet} (hschema : vs.schema = s) (hfitted : vs.Fitted) :
    (renderChunk chunk vs).Completes := by
  induction hwired generalizing vs with
  | static => exact .inl rfl
  | @scalar s v reflow attached has =>
      have hget := @ValueSet.getScalar_of_attached vs v (by rw [attached, hschema])
      rw [renderChunk, hget]
      cases reflow with
      | none => exact .inl rfl
      | some r =>
          dsimp only
          cases r.apply (vs.valueAt v.index) with
          | ok filled => exact .inl rfl
          | error o => exact .inr ⟨o, rfl⟩
  | @subsection s d t program parent rows child wired ih =>
      obtain ⟨hfailure, hschemas, hrows⟩ := hfitted
      have hget := @ValueSet.getStream_of_parent vs t (by rw [parent, hschema])
      rw [renderChunk, hget]
      dsimp only
      rw [hfailure]
      refine Rendering.completes_rows fun row hrow => ?_
      obtain ⟨sub, hsub, hrowSchema⟩ := hschemas t.index row hrow
      rw [hschema, rows] at hsub
      cases hsub
      exact completes_renderFrom 1 _ fun chunk hchunk =>
        ih chunk hchunk hrowSchema (hrows t.index row hrow)
  | @switch s cases default outputs otherwise ihcases ihdefault =>
      rw [renderChunk]
      split
      · rename_i chosen hchosen
        refine completes_renderCases (fun condition program hmem chunk hchunk => ?_) chosen hchosen
        exact ihcases condition program hmem chunk hchunk hschema hfitted
      · cases default with
        | none => exact .inl rfl
        | some program =>
            exact completes_renderFrom 1 _ fun chunk hchunk =>
              ihdefault program rfl chunk hchunk hschema hfitted

end Program

namespace Session

variable [UrlReader] {σ : Session}

/-- **Rendering does not fail.** In whatever order schemas were declared on and trees compiled,
the handles in the program of a template are those of its schema, at every level of nesting; and
values that are made for that schema, in whatever way, are rendered completely into a sink that
accepts all writes, unless a counter overflows. -/
theorem Reached.render_completes (hσ : σ.Reached) {t : Template} (ht : .template t ∈ σ.holders) :
    t.program.Wired t.schema ∧ ∀ vs, σ.Makes vs → vs.schema.id = t.schema.id →
      (t.render vs none).stopped = none ∨ ∃ o, (t.render vs none).stopped = some (.overflow o) := by
  have hwired := hσ.wired t ht
  refine ⟨hwired, fun vs hmakes hid => ?_⟩
  obtain ⟨hfitted, hmem⟩ := hmakes.fitted hσ.valid
  have hschema := hσ.valid.eq_of_id_eq hmem (mem_schemas_of_mem ht) hid
  rw [Template.render, if_pos hid, Rendering.deliver, Delivery.run_none]
  exact Program.completes_renderFrom 1 _ fun chunk hchunk =>
    Program.completes_renderChunk (hwired chunk hchunk) hschema hfitted

end Session

namespace Node

/-- Values that are bound to the template for `profile` are rendered. -/
theorem render_completes_profile : ∃ t later vs,
    profile.compile .tidy (.newRoot 1) = (.ok t, later) ∧
      t.bind (profileArgs "<jd>" "a b") = .ok vs ∧ t.program.Wired t.schema ∧
      ((t.render vs none).stopped = none ∨
        ∃ o, (t.render vs none).stopped = some (.overflow o)) := by
  have hruns : profile.runs .tidy (profileArgs "<jd>" "a b") (fun _ _ => true) = true := by
    decide +kernel
  obtain ⟨t, later, vs, hcompile, hbind, -⟩ := exists_of_runs hruns
  have hσ := Session.reached_of_compile hcompile
  have ht : .template t ∈ Session.holders ⟨[.template t], later, [], []⟩ :=
    List.mem_singleton_self _
  obtain ⟨hwired, hcompletes⟩ := hσ.render_completes ht
  have hmakes := Session.Makes.bind (Session.mem_schemas_of_mem ht) hbind
  refine ⟨t, later, vs, hcompile, hbind, hwired, hcompletes vs hmakes ?_⟩
  rw [(Schema.bound_of_bind hbind).schema_eq]

end Node

end TrustedHtml
