import TrustedHtml.Proofs.Assembly
import TrustedHtml.Proofs.Bound
import TrustedHtml.Proofs.Compiled
import TrustedHtml.Template.Render
import TrustedHtml.Url.Web

/-!
# Trust Soundness

A variable can be used at many places of a tree that require different levels, but one string
is stored for it, checked once, at the level that its slot has when the value is bound. This
module shows that the one check is good for all places.

The sites of a tree, `Node.sites`, are its uses of variables, nested as its subsections and
switches are. `Program.Each P sites program vs args` goes through a program side by side with
the sites it was compiled from, into every row and every alternative: every chunk that reads a
variable belongs to one site, in order, and `P` relates the place of the site, the two
handles, and the value set the chunk is rendered against with the arguments it was bound to.
What a chunk emits is the value of its variable here; `Node.writes_sound` tells of the writes.

## Main results

* `Place.Sound`: what is emitted at a place is what checking the last string for the place
  gives, or nothing if there was no string.
* `Node.trust_sound`: **every chunk of every template is sound in this sense.**
-/

namespace TrustedHtml

/-! ### Sites -/

/-- A use of a variable, or a part of a tree that becomes a program of its own. -/
inductive Site where
  | scalar (place : Place) (var : Var)
  | subsection (name : String) (sites : List Site)
  /-- The sites of every case and those of the default; an alternative without an output has
  none. -/
  | switch (cases : List (List Site)) (default : List Site)

/-- The site of a value. -/
def Value.sites (place : Place) : Value → List Site
  | .concrete _ => []
  | .deferred v => [.scalar place v]

namespace Node

mutual

/-- The sites of a tree, in the order of the page. -/
def sites : Node → List Site
  | .element e contents =>
      ((Attribute.lastOfEachName e.attributes).flatMap fun a => a.value.sites a.place)
        ++ childSites contents
  | .text value _ => value.sites .text
  | .raw value => value.sites .raw
  | .multi _ contents => childSites contents
  | .subsection name prototype => [.subsection name (sites prototype)]
  | .switch cases default => [.switch (caseSites cases) (outputSites default)]

/-- The sites of children. -/
def childSites : List Node → List Site
  | [] => []
  | child :: rest => sites child ++ childSites rest

/-- The sites of every case. -/
def caseSites : List (Condition × Option Node) → List (List Site)
  | [] => []
  | (_, output) :: rest => outputSites output :: caseSites rest

/-- The sites of an alternative. -/
def outputSites : Option Node → List Site
  | none => []
  | some output => sites output

end

end Node

/-! ### Going through a program -/

namespace Program

mutual

/-- `P` holds at every chunk of a program that reads a variable, in every row and in every
alternative. -/
inductive Each (P : Place → Var → Var → ValueSet → List BindArg → Prop) :
    List Site → Program → ValueSet → List BindArg → Prop
  | nil {vs : ValueSet} {args : List BindArg} : Each P [] [] vs args
  | static {sites : List Site} {text : String} {rest : Program} {vs : ValueSet}
      {args : List BindArg} (hrest : Each P sites rest vs args) :
      Each P sites (.static text :: rest) vs args
  | step {site : Site} {sites : List Site} {chunk : Chunk} {rest : Program} {vs : ValueSet}
      {args : List BindArg} (hchunk : EachChunk P site chunk vs args)
      (hrest : Each P sites rest vs args) : Each P (site :: sites) (chunk :: rest) vs args

/-- The chunk for one site. -/
inductive EachChunk (P : Place → Var → Var → ValueSet → List BindArg → Prop) :
    Site → Chunk → ValueSet → List BindArg → Prop
  | scalar {place : Place} {v w : Var} {reflow : Option Reflow} {vs : ValueSet}
      {args : List BindArg} (h : P place v w vs args) :
      EachChunk P (.scalar place v) (.scalar w reflow) vs args
  | subsection {sites : List Site} {t : Tag} {program : Program} {vs : ValueSet}
      {args : List BindArg} {rows : List ValueSet} (hstream : vs.getStream t = .ok (.ofRows rows))
      (hrows : EachRow P sites program rows (Binding.lastRows vs.schema t.index args)) :
      EachChunk P (.subsection t.name.text sites) (.subsection t program) vs args
  | switch {alternatives : List (List Site)} {sites : List Site}
      {cases : List (Condition × Option Program)} {default : Option Program} {vs : ValueSet}
      {args : List BindArg} (hcases : EachCase P alternatives cases vs args)
      (hdefault : EachOutput P sites default vs args) :
      EachChunk P (.switch alternatives sites) (.switch cases default) vs args

/-- One row after the other, each with its own arguments. -/
inductive EachRow (P : Place → Var → Var → ValueSet → List BindArg → Prop) :
    List Site → Program → List ValueSet → List (List BindArg) → Prop
  | nil {sites : List Site} {program : Program} : EachRow P sites program [] []
  | cons {sites : List Site} {program : Program} {row : ValueSet} {args : List BindArg}
      {rows : List ValueSet} {rest : List (List BindArg)} (hrow : Each P sites program row args)
      (hrest : EachRow P sites program rows rest) :
      EachRow P sites program (row :: rows) (args :: rest)

/-- The cases of a switch, those that are not chosen too. -/
inductive EachCase (P : Place → Var → Var → ValueSet → List BindArg → Prop) :
    List (List Site) → List (Condition × Option Program) → ValueSet → List BindArg → Prop
  | nil {vs : ValueSet} {args : List BindArg} : EachCase P [] [] vs args
  | cons {sites : List Site} {alternatives : List (List Site)} {condition : Condition}
      {output : Option Program} {cases : List (Condition × Option Program)} {vs : ValueSet}
      {args : List BindArg} (houtput : EachOutput P sites output vs args)
      (hrest : EachCase P alternatives cases vs args) :
      EachCase P (sites :: alternatives) ((condition, output) :: cases) vs args

/-- An alternative, if it has an output. -/
inductive EachOutput (P : Place → Var → Var → ValueSet → List BindArg → Prop) :
    List Site → Option Program → ValueSet → List BindArg → Prop
  | none {vs : ValueSet} {args : List BindArg} : EachOutput P [] none vs args
  | some {sites : List Site} {program : Program} {vs : ValueSet} {args : List BindArg}
      (hprogram : Each P sites program vs args) : EachOutput P sites (some program) vs args

end

variable {P : Place → Var → Var → ValueSet → List BindArg → Prop} {vs : ValueSet}
  {args : List BindArg}

/-- Programs that follow each other go with sites that follow each other. -/
theorem Each.append {sites later : List Site} {program rest : Program}
    (h : Each P sites program vs args) (hrest : Each P later rest vs args) :
    Each P (sites ++ later) (program ++ rest) vs args := by
  induction program generalizing sites with
  | nil =>
      cases h
      exact hrest
  | cons chunk chunks ih =>
      cases h with
      | static h => exact .static (ih h)
      | step hchunk h => exact .step hchunk (ih h)

/-- Only the steps of a program matter. -/
theorem Each.of_steps {program : Program} {sites : List Site}
    (h : Each P sites program.steps vs args) : Each P sites program vs args := by
  induction program generalizing sites with
  | nil => exact h
  | cons chunk chunks ih =>
      cases chunk with
      | static text => exact .static (ih h)
      | scalar w reflow =>
          cases h with
          | step hchunk h => exact .step hchunk (ih h)
      | subsection t nested =>
          cases h with
          | step hchunk h => exact .step hchunk (ih h)
      | switch cases default =>
          cases h with
          | step hchunk h => exact .step hchunk (ih h)

/-- Only the steps among pieces matter. -/
theorem Each.of_pieces {o : LayoutOptions} {pieces : List Piece} {sites : List Site}
    (h : Each P sites (pieces.flatMap Piece.steps) vs args) :
    Each P sites (assemble o pieces) vs args := by
  rw [← steps_assemble o] at h
  exact h.of_steps

/-- What holds of every row on its own holds of the rows. -/
theorem EachRow.of_forall₂ {sites : List Site} {program : Program} {rows : List ValueSet}
    {given : List (List BindArg)} {R : ValueSet → List BindArg → Prop}
    (hrows : List.Forall₂ R rows given)
    (h : ∀ row args, R row args → Each P sites program row args) :
    EachRow P sites program rows given := by
  induction hrows with
  | nil => exact .nil
  | cons hrow _ ih => exact .cons (h _ _ hrow) ih

end Program

namespace Element

/-- An element without a closing tag has no contents. -/
theorem contents_of_check {e : Element} {contents : List Node} (hcheck : e.check contents = .ok ())
    (hclosed : e.isClosed = true) : contents = [] := by
  rw [check] at hcheck
  split at hcheck
  · cases hcheck
  · obtain ⟨_, _, hcontents⟩ := Except.bind_eq_ok.mp hcheck
    cases contents with
    | nil => rfl
    | cons child rest =>
        rw [hclosed] at hcontents
        cases hcontents

/-- Beginning an element takes no step. -/
theorem steps_startPieces (o : LayoutOptions) (depth : ℕ) (e : Element) :
    (e.startPieces o depth).flatMap Piece.steps = [] := by
  rw [startPieces]
  split <;> rfl

/-- Beginning a line within an element takes no step. -/
theorem steps_breakPieces (o : LayoutOptions) (depth : ℕ) (e : Element) :
    (e.breakPieces o depth).flatMap Piece.steps = [] := by
  rw [breakPieces]
  split <;> rfl

end Element

/-! ### Soundness -/

section Soundness

variable [UrlReader]

/-- **What is emitted at a place**, before it is reflowed, is nothing if no argument addresses
the slot. Otherwise the last string bound to the slot passes the check at the level that the
place requires, and what is emitted is what the check gives, unless nothing is required. -/
def Place.Sound (place : Place) (v w : Var) (vs : ValueSet) (args : List BindArg) : Prop :=
  w.name = v.name ∧ ∃ emitted, vs.getScalar w = .ok emitted ∧
    match Binding.lastScalar? vs.schema w.index args with
    | none => emitted = ""
    | some (value, _) => ∃ checked, value.check place.required = .ok checked ∧
        (place.required ≠ .untrusted → emitted = checked)

/-- A handle that is offered at the level of a place is sound there. -/
theorem Schema.Offers.sound {f : Schema} {v w : Var} {place : Place} {vs : ValueSet}
    {args : List BindArg} (hoffer : f.Offers w v.name (v.level ⊔ place.required))
    (hbound : vs.Bound f args) : place.Sound v w vs args := by
  refine ⟨hoffer.name_eq, vs.valueAt w.index, hbound.getScalar_eq hoffer, ?_⟩
  rw [hbound.schema_eq]
  split
  · rename_i hnone
    exact hbound.unset hnone
  · rename_i value extra hlast
    obtain ⟨slot, hslot, hcheck⟩ := hbound.checked hlast
    obtain ⟨-, -, slot', hslot', -, hlevel⟩ := hoffer
    obtain rfl := Option.some.inj (hslot.symm.trans hslot')
    have hle : place.required ≤ slot.level ⊔ extra :=
      (le_sup_right.trans hlevel).trans le_sup_left
    exact SafeString.check_of_le hle hcheck

section

variable {o : LayoutOptions} {f : Schema} {vs : ValueSet} {args : List BindArg}

/-- A value is sound at its place. -/
theorem Value.Compiles.each (place : Place) {value : Value} {piece : Piece}
    (h : value.Compiles f place.required piece) (hbound : vs.Bound f args) :
    Program.Each Place.Sound (value.sites place) piece.steps vs args := by
  cases h with
  | concrete hcheck => exact .nil
  | deferred hoffer => exact .step (.scalar (hoffer.sound hbound)) .nil

/-- A text is sound. -/
theorem Value.TextCompiles.each {depth : ℕ} {width : Option ℕ} {value : Value} {piece : Piece}
    (h : value.TextCompiles o f depth width piece) (hbound : vs.Bound f args) :
    Program.Each Place.Sound (value.sites .text) piece.steps vs args := by
  cases h with
  | concrete hcheck hreflow => exact .nil
  | deferred hoffer =>
      have hsound : Place.text.Sound _ _ vs args := hoffer.sound hbound
      exact .step (.scalar hsound) .nil

/-- An attribute is sound. -/
theorem Attribute.Compiles.each {a : Attribute} {found : List Piece} (h : a.Compiles f found)
    (hbound : vs.Bound f args) :
    Program.Each Place.Sound (a.value.sites a.place) (found.flatMap Piece.steps) vs args := by
  obtain ⟨-, hvalue⟩ := h
  have heach := hvalue.each a.place hbound
  simpa [Piece.steps] using heach

/-- Attributes are sound. -/
theorem Attribute.each_of_forall₂ {attributes : List Attribute} {each : List (List Piece)}
    (h : List.Forall₂ (Attribute.Compiles f) attributes each) (hbound : vs.Bound f args) :
    Program.Each Place.Sound (attributes.flatMap fun a => a.value.sites a.place)
      (each.flatten.flatMap Piece.steps) vs args := by
  induction h with
  | nil => exact .nil
  | cons hattribute _ ih =>
      rw [List.flatten_cons, List.flatMap_append]
      exact .append (hattribute.each hbound) ih

/-- The attributes of an opening tag are sound. -/
theorem Element.OpeningCompiles.each {e : Element} {opening : List Piece}
    (h : e.OpeningCompiles f opening) (hbound : vs.Bound f args) :
    Program.Each Place.Sound
      ((Attribute.lastOfEachName e.attributes).flatMap fun a => a.value.sites a.place)
      (opening.flatMap Piece.steps) vs args := by
  obtain ⟨hattributes⟩ := h
  have heach := Attribute.each_of_forall₂ hattributes hbound
  simpa [Piece.steps] using heach

end

namespace Node

variable {o : LayoutOptions}

mutual

/-- The pieces of a tree are sound at its sites. -/
theorem Compiles.each {f : Schema} {depth : ℕ} {node : Node} {found : List Piece} {vs : ValueSet}
    {args : List BindArg} (hwf : f.WellFormed) (hbound : vs.Bound f args) :
    node.Compiles o f depth found →
      Program.Each Place.Sound node.sites (found.flatMap Piece.steps) vs args
  | .closed (e := e) hcheck hclosed hopening => by
      obtain rfl := e.contents_of_check hcheck hclosed
      rw [List.flatMap_append, e.steps_startPieces, sites, childSites, List.append_nil]
      exact hopening.each hbound
  | .paired (e := e) hcheck hclosed hopening hbody => by
      simp only [List.flatMap_append, e.steps_startPieces, e.steps_breakPieces, List.append_nil,
        List.nil_append, List.flatMap_singleton, Piece.steps]
      exact .append (hopening.each hbound) (hbody.each hwf hbound)
  | .text hvalue => by
      rw [List.flatMap_singleton]
      exact hvalue.each hbound
  | .raw hvalue => by
      rw [List.flatMap_singleton]
      exact hvalue.each .raw hbound
  | .multi hbody => hbody.each hwf hbound
  | .subsection hname htag hfound => by
      subst hname
      obtain ⟨rows, hstream, -, hrows⟩ := hbound.getStream_eq hwf htag
      rw [← hbound.schema_eq] at hrows
      have hchild := hwf.child (List.mem_of_getElem? htag)
      refine .step (.subsection hstream (.of_forall₂ hrows fun row args hrow => ?_)) .nil
      exact .of_pieces (hfound.each hchild (Schema.bound_of_bind hrow))
  | .switch hcases hdefault =>
      .step (.switch (hcases.each hwf hbound) (hdefault.each hwf hbound)) .nil

/-- The pieces of children are sound. -/
theorem ChildrenCompile.each {f : Schema} {depth : ℕ} {contents : List Node} {found : List Piece}
    {vs : ValueSet} {args : List BindArg} (hwf : f.WellFormed) (hbound : vs.Bound f args) :
    ChildrenCompile o f depth contents found →
      Program.Each Place.Sound (childSites contents) (found.flatMap Piece.steps) vs args
  | .nil => .nil
  | .cons hchild hrest => by
      rw [List.flatMap_append]
      exact .append (hchild.each hwf hbound) (hrest.each hwf hbound)

/-- The cases of a switch are sound. -/
theorem CasesCompile.each {f : Schema} {depth : ℕ} {cases : List (Condition × Option Node)}
    {programs : List (Condition × Option Program)} {vs : ValueSet} {args : List BindArg}
    (hwf : f.WellFormed) (hbound : vs.Bound f args) : CasesCompile o f depth cases programs →
      Program.EachCase Place.Sound (caseSites cases) programs vs args
  | .nil => .nil
  | .cons houtput hrest => .cons (houtput.each hwf hbound) (hrest.each hwf hbound)

/-- An alternative is sound. -/
theorem OutputCompiles.each {f : Schema} {depth : ℕ} {output : Option Node}
    {program : Option Program} {vs : ValueSet} {args : List BindArg} (hwf : f.WellFormed)
    (hbound : vs.Bound f args) : OutputCompiles o f depth output program →
      Program.EachOutput Place.Sound (outputSites output) program vs args
  | .none => .none
  | .some hfound => .some (Program.Each.of_pieces (hfound.each hwf hbound))

end

/-- **Trust soundness.** If a tree compiles against some schema and arguments are bound to
the template, then every chunk that reads a variable, in every row and every alternative,
belongs to one use of a variable in the tree, and is sound at its place: it emits nothing if
no argument addresses its slot, and otherwise the last string bound to the slot meets what the
place requires, and the chunk emits it as checked for that place, whatever other places the
variable is used at. -/
theorem trust_sound {node : Node} {scope : Scope} {t : Template} {next : ℕ}
    {args : List BindArg} {vs : ValueSet} (hwf : scope.schema.WellFormed)
    (hcompile : node.compile o scope = (.ok t, next)) (hbind : t.bind args = .ok vs) :
    t.program.Each Place.Sound node.sites vs args := by
  obtain ⟨hwf', -, found, hfound, hprogram⟩ := compiles_of_compile hwf hcompile
  rw [hprogram]
  exact .of_pieces (hfound.each hwf' (Schema.bound_of_bind hbind))

end Node

end Soundness

namespace Node

/-- What is bound to the variable of `profile` is sound at both of its places. -/
theorem trust_sound_profile : ∃ t next vs,
    profile.compile .tidy (.newRoot 1) = (.ok t, next) ∧
      t.bind (profileArgs "<jd>" "a b") = .ok vs ∧
      t.program.Each Place.Sound profile.sites vs (profileArgs "<jd>" "a b") := by
  have hruns : profile.runs .tidy (profileArgs "<jd>" "a b") (fun _ _ => true) = true := by
    decide +kernel
  obtain ⟨t, next, vs, hcompile, hbind, -⟩ := exists_of_runs hruns
  have hroot : (Scope.newRoot 1).schema.WellFormed := Schema.wellFormed_of_empty rfl rfl
  exact ⟨t, next, vs, hcompile, hbind, trust_sound hroot hcompile hbind⟩

end Node

end TrustedHtml
