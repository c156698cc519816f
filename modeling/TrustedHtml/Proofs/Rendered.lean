import TrustedHtml.Proofs.Page

/-!
# Renderings of Templates

A template that was compiled from a tree, rendered with values that were bound to it, shows
the page of the tree. So what holds of pages, which are defined by recursion on the tree, holds
of the output: the order in which the schema grew, the places of the variables, the chunks and
the numbers in failures play no part in it.

## Main results

* `Node.Compiles.shows`: the pieces for a tree show the page of the tree.
* `Node.render_shows`: **a template shows the page of its tree.**
* `Template.render_eq`: what a sink without a limit receives.
-/

namespace TrustedHtml

/-- Text is left as it is if no width is given. -/
theorem Reflow.apply_of_width_eq_zero {r : Reflow} (h : r.width = 0) (text : String) :
    r.apply text = .ok text := by
  rw [apply, append, if_pos h, String.empty_append]
  rfl

/-- What rendering into a string yields. -/
def Template.renderToString (t : Template) (vs : ValueSet) : Except Abort String :=
  let delivery := t.render vs none
  match delivery.stopped with
  | none => .ok delivery.accepted
  | some e => .error e

/-- A sink without a limit accepts all writes. -/
theorem Delivery.run_none (stopped : Option Abort) (writes : List Write) (accepted : String) :
    run none stopped accepted writes =
      ⟨accepted ++ String.join (writes.map (·.text)), stopped⟩ := by
  induction writes generalizing accepted with
  | nil => simp [run]
  | cons w rest ih => simp [run, Write.fits, ih, String.append_assoc]

/-! ### Parts without values -/

/-- What is in front of an element is shown as such. -/
theorem Element.shows_startPieces (o : LayoutOptions) (vs : ValueSet) (depth : ℕ) (e : Element) :
    Piece.AllShow o vs (e.startPieces o depth) (e.startPage o depth) := by
  rw [startPieces, startPage]
  split
  · exact Piece.Shows.single .freshLine
  · exact .nil

/-- What begins a line within an element is shown as such. -/
theorem Element.shows_breakPieces (o : LayoutOptions) (vs : ValueSet) (depth : ℕ) (e : Element) :
    Piece.AllShow o vs (e.breakPieces o depth) (e.breakPage o depth) := by
  rw [breakPieces, breakPage]
  split
  · exact Piece.Shows.single (.text .markup)
  · exact .nil

/-- Rows are shown one after the other. -/
theorem Rendering.shows_rows {rows : List ValueSet} {given : List (List BindArg)}
    {R : ValueSet → List BindArg → Prop} {render : ValueSet → Rendering}
    {page : ValueSet → List BindArg → Page} (hrows : List.Forall₂ R rows given)
    (h : ∀ row args, R row args → (render row).Shows (page row args)) :
    (rows.foldr (fun row later => (render row).append later) .empty).Shows
      ((rows.zip given).foldr (fun row later => (page row.1 row.2).append later) .empty) := by
  induction hrows with
  | nil => exact shows_empty
  | cons hrow _ ih => exact (h _ _ hrow).append ih

/-- A switch carries out the case that is chosen, and the default if none is. -/
theorem Program.renderChunk_switch (cases : List (Condition × Option Program))
    (default : Option Program) (vs : ValueSet) :
    renderChunk (.switch cases default) vs =
      (renderCases cases vs).getD (renderOutput default vs) := by
  rw [renderChunk]
  cases renderCases cases vs <;> rfl

section Shows

variable [UrlReader] {o : LayoutOptions} {f : Schema} {vs : ValueSet} {args : List BindArg}

/-! ### Values -/

/-- A value at a place is shown as such. -/
theorem Value.Compiles.shows (place : Place) {value : Value} {piece : Piece} (hwf : f.WellFormed)
    (hbound : vs.Bound f args) (h : value.Compiles f place.required piece) :
    piece.Shows o vs (.ofBit (value.bit place vs args)) := by
  cases h with
  | @concrete s text hcheck =>
      have hcontent : (Value.concrete s).content place vs = text := by
        rw [Value.content, hcheck]
        rfl
      rw [Value.bit, hcontent]
      exact .text .value
  | @deferred v w hoffer =>
      have hcontent : (Value.deferred v).content place vs = vs.valueAt w.index := by
        rw [Value.content, hbound.scalarByName_eq hwf hoffer]
        rfl
      rw [Value.bit, hcontent]
      refine .step ?_
      rw [Program.renderChunk, hbound.getScalar_eq hoffer]
      exact Rendering.shows_write .value

/-- A text is shown as such, however wide it is. -/
theorem Value.TextCompiles.shows {depth : ℕ} {width : Option ℕ} {value : Value} {piece : Piece}
    (hwf : f.WellFormed) (hbound : vs.Bound f args)
    (h : value.TextCompiles o f depth width piece) :
    piece.Shows o vs (value.textPage (o.reflow depth width) vs args) := by
  cases h with
  | @concrete s checked text hcheck hreflow =>
      have hcontent : (Value.concrete s).content .text vs = checked := by
        rw [Value.content, Place.required, hcheck]
        rfl
      rw [Value.textPage, hcontent, hreflow]
      exact .text .value
  | @deferred v w hoffer =>
      have hcontent : (Value.deferred v).content .text vs = vs.valueAt w.index := by
        rw [Value.content, hbound.scalarByName_eq hwf hoffer]
        rfl
      rw [Value.textPage, hcontent]
      refine .step ?_
      rw [Program.renderChunk, hbound.getScalar_eq hoffer]
      dsimp only
      by_cases hwidth : 0 < width.getD o.textWidth
      · rw [if_pos hwidth]
        cases hreflow : (o.reflow depth width).apply (vs.valueAt w.index) with
        | ok filled =>
            simp only [hreflow]
            exact Rendering.shows_write .value
        | error e =>
            simp only [hreflow]
            exact Rendering.shows_stop e
      · have hzero : (o.reflow depth width).width = 0 := Nat.eq_zero_of_not_pos hwidth
        rw [if_neg hwidth, Reflow.apply_of_width_eq_zero hzero]
        exact Rendering.shows_write .value

/-! ### Elements -/

/-- An attribute is shown as such. -/
theorem Attribute.Compiles.shows {a : Attribute} {found : List Piece} (hwf : f.WellFormed)
    (hbound : vs.Bound f args) (h : a.Compiles f found) :
    Piece.AllShow o vs found (a.page vs args) := by
  obtain ⟨-, hvalue⟩ := h
  have hpiece := hvalue.shows (o := o) a.place hwf hbound
  exact .cons (.text .markup) (.cons hpiece (Piece.Shows.single (.text .markup)))

/-- Attributes are shown one after the other. -/
theorem Attribute.shows_of_forall₂ {attributes : List Attribute} {each : List (List Piece)}
    (hwf : f.WellFormed) (hbound : vs.Bound f args)
    (h : List.Forall₂ (Attribute.Compiles f) attributes each) :
    Piece.AllShow o vs each.flatten
      (attributes.foldr (fun a later => (a.page vs args).append later) .empty) := by
  induction h with
  | nil => exact .nil
  | cons hattribute _ ih => exact (hattribute.shows hwf hbound).append ih

/-- An opening tag is shown as such. -/
theorem Element.OpeningCompiles.shows {e : Element} {opening : List Piece} (hwf : f.WellFormed)
    (hbound : vs.Bound f args) (h : e.OpeningCompiles f opening) :
    Piece.AllShow o vs opening (e.openingPage vs args) := by
  obtain ⟨hattributes⟩ := h
  have hshown := Attribute.shows_of_forall₂ (o := o) hwf hbound hattributes
  exact .append (.cons (.text .markup) hshown) (Piece.Shows.single (.text .markup))

/-! ### Trees -/

namespace Node

mutual

/-- **Pieces for a tree show the page of the tree.** -/
theorem Compiles.shows {f : Schema} {depth : ℕ} {node : Node} {found : List Piece}
    {vs : ValueSet} {args : List BindArg} (hwf : f.WellFormed) (hbound : vs.Bound f args) :
    node.Compiles o f depth found → Piece.AllShow o vs found (node.page o depth vs args)
  | .closed (e := e) hcheck hclosed hopening => by
      rw [page, if_pos hclosed]
      exact (e.shows_startPieces o vs depth).append (hopening.shows hwf hbound)
  | .paired (e := e) hcheck hclosed hopening hbody => by
      rw [page, if_neg (by simp [hclosed])]
      refine .append (.append (.append (.append (.append ?_ ?_) ?_) ?_) ?_) ?_
      · exact e.shows_startPieces o vs depth
      · exact hopening.shows hwf hbound
      · exact e.shows_breakPieces o vs _
      · exact hbody.shows hwf hbound
      · exact e.shows_breakPieces o vs depth
      · exact Piece.Shows.single (.text .markup)
  | .text hvalue => by
      rw [page]
      exact Piece.Shows.single (hvalue.shows hwf hbound)
  | .raw hvalue => by
      rw [page]
      exact Piece.Shows.single (hvalue.shows .raw hwf hbound)
  | .multi hbody => by
      rw [page]
      exact hbody.shows hwf hbound
  | .subsection (t := t) hname htag hfound => by
      subst hname
      obtain ⟨rows, hget, hstream, hrows⟩ := hbound.getStream_eq hwf htag
      have hchild := hwf.child (List.mem_of_getElem? htag)
      refine Piece.Shows.single (.step ?_)
      rw [page, Program.renderChunk, hget, ValueSet.rowsNamed, Binding.rowsNamed, hbound.schema_eq,
        hwf.subsection?_eq htag]
      dsimp only
      rw [hstream]
      refine Rendering.shows_rows hrows fun row args hrow => ?_
      exact (hfound.shows hchild (Schema.bound_of_bind hrow)).assemble 1 _
  | .switch hcases hdefault => by
      refine Piece.Shows.single (.step ?_)
      rw [page, Program.renderChunk_switch]
      exact getD_of_rel (hcases.shows hwf hbound) fun _ => hdefault.shows hwf hbound

/-- Pieces for children show their pages. -/
theorem ChildrenCompile.shows {f : Schema} {depth : ℕ} {contents : List Node}
    {found : List Piece} {vs : ValueSet} {args : List BindArg} (hwf : f.WellFormed)
    (hbound : vs.Bound f args) : ChildrenCompile o f depth contents found →
      Piece.AllShow o vs found (childPages o depth contents vs args)
  | .nil => .nil
  | .cons hchild hrest => (hchild.shows hwf hbound).append (hrest.shows hwf hbound)

/-- The case that is chosen is shown, if one is. -/
theorem CasesCompile.shows {f : Schema} {depth : ℕ} {cases : List (Condition × Option Node)}
    {programs : List (Condition × Option Program)} {vs : ValueSet} {args : List BindArg}
    (hwf : f.WellFormed) (hbound : vs.Bound f args) : CasesCompile o f depth cases programs →
      Option.Rel Rendering.Shows (Program.renderCases programs vs)
        (casePage o depth cases vs args)
  | .nil => .none
  | @CasesCompile.cons _ _ _ _ condition _ _ _ _ houtput hrest => by
      rw [Program.renderCases, casePage]
      by_cases hholds : condition vs
      · rw [if_pos hholds, if_pos hholds]
        exact .some (houtput.shows hwf hbound)
      · rw [if_neg hholds, if_neg hholds]
        exact hrest.shows hwf hbound

/-- An alternative shows the page of its output. -/
theorem OutputCompiles.shows {f : Schema} {depth : ℕ} {output : Option Node}
    {program : Option Program} {vs : ValueSet} {args : List BindArg} (hwf : f.WellFormed)
    (hbound : vs.Bound f args) : OutputCompiles o f depth output program →
      (Program.renderOutput program vs).Shows (outputPage o depth output vs args)
  | .none => Rendering.shows_empty
  | .some hfound => (hfound.shows hwf hbound).assemble 1 _

end

/-- **A template shows the page of its tree.** -/
theorem render_shows {node : Node} {scope : Scope} {t : Template} {next : ℕ}
    {args : List BindArg} {vs : ValueSet} (hwf : scope.schema.WellFormed)
    (hcompile : node.compile o scope = (.ok t, next)) (hbind : t.bind args = .ok vs) :
    (t.program.render vs).Shows (node.page o o.rootDepth vs args) := by
  obtain ⟨hwf', -, found, hfound, hprogram⟩ := compiles_of_compile hwf hcompile
  rw [hprogram]
  exact (hfound.shows hwf' (Schema.bound_of_bind hbind)).assemble 1 _

end Node

/-! ### Sinks -/

/-- What a sink without a limit receives of values that were bound to the template. -/
theorem Template.render_eq {t : Template} (hbind : t.bind args = .ok vs) :
    t.render vs none = ⟨(t.program.render vs).text, (t.program.render vs).stopped⟩ := by
  rw [render, (Schema.bound_of_bind hbind).schema_eq, if_pos rfl, Rendering.deliver,
    Delivery.run_none, String.empty_append]
  rfl

/-- **Rendering into a string** yields what is written for the page of the tree, or the overflow
that ended the page. -/
theorem Node.renderToString_cases {node : Node} {scope : Scope} {t : Template} {next : ℕ}
    (hwf : scope.schema.WellFormed) (hcompile : node.compile o scope = (.ok t, next))
    (hbind : t.bind args = .ok vs) :
    (∃ text, t.renderToString vs = .ok text ∧ (node.page o o.rootDepth vs args).stopped = none ∧
        (node.page o o.rootDepth vs args).Shows text) ∨
      ∃ e, t.renderToString vs = .error (.overflow e) ∧
        (node.page o o.rootDepth vs args).stopped = some e := by
  have hshows := render_shows hwf hcompile hbind
  have hstopped := hshows.stopped
  rw [Template.renderToString, Template.render_eq hbind]
  cases hpage : (node.page o o.rootDepth vs args).stopped with
  | none =>
      rw [hpage] at hstopped
      rw [hstopped]
      exact .inl ⟨_, rfl, rfl, hshows.text⟩
  | some e =>
      rw [hpage] at hstopped
      rw [hstopped]
      exact .inr ⟨e, rfl, rfl⟩

end Shows

end TrustedHtml
