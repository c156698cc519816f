import TrustedHtml.Node.Builder
import TrustedHtml.Proofs.Declaring
import TrustedHtml.Template.Render

/-!
# Compiled Trees

While a tree is compiled the schema changes under it: a later part of the tree can raise the
level of a variable, or add variables to the rows of a subsection, that an earlier part has
already been compiled against. This module describes what compiling a tree yields in terms of
the schema as it is in the end.

`Node.Compiles o f depth node pieces` says that `pieces` are pieces for `node` if `f` is the
schema of its surroundings. It has one rule for each kind of node. Strings that are known have
passed their check, variables have become handles that `f` offers at the level of their place,
and prototypes are compiled for the schema that `f` has for the rows. Compiling yields pieces
that are related in this way to every later state of the schema, so to the one of the template.

## Main results

* `Node.pieces_ensures`: **compiling follows the rules**, and only lets the schema grow.
* `Node.compiles_of_compile`: what a template is made of.
-/

namespace TrustedHtml

/-! ### Places and lines -/

/-- Where a value can stand. -/
inductive Place where
  | text
  | raw
  /-- In an attribute, which can require a level of its own. -/
  | attribute (name : String) (level : TrustLevel)
deriving DecidableEq

/-- The level that a place requires. -/
def Place.required : Place → TrustLevel
  | .text => .textSafe
  | .raw => .htmlSafe
  | .attribute name level => (TrustLevel.ofAttribute name).join level

/-- The place in an attribute. -/
def Attribute.place (a : Attribute) : Place :=
  .attribute a.name a.level

/-- How a text at the given depth is reflowed. -/
def LayoutOptions.reflow (o : LayoutOptions) (depth : ℕ) (width : Option ℕ) : Reflow :=
  ⟨width.getD o.textWidth, depth, o.indent⟩

/-- Whether an element stands on a line of its own. -/
def Element.isBlock (o : LayoutOptions) (e : Element) : Bool :=
  e.style == .block && !o.isCompact

/-- The depth of the contents of an element. -/
def Element.innerDepth (o : LayoutOptions) (depth : ℕ) (e : Element) : ℕ :=
  if e.isBlock o then depth + 1 else depth

/-- The pieces in front of an element. -/
def Element.startPieces (o : LayoutOptions) (depth : ℕ) (e : Element) : List Piece :=
  if e.isBlock o then [.freshLine depth] else []

/-- The pieces that begin a line within an element. -/
def Element.breakPieces (o : LayoutOptions) (depth : ℕ) (e : Element) : List Piece :=
  if e.isBlock o then [.text (o.lineBreak depth)] else []

/-- The depth of the contents of an element, if it is a counter. -/
def Element.enter (o : LayoutOptions) (depth : ℕ) (e : Element) : Declaring ℕ :=
  if e.isBlock o then Declaring.orOverflow (Counter.add depth 1) else pure depth

/-- A name that is accepted is the name that was given. -/
theorem SlotName.text_of_checked {kind : NameKind} {name : String} {slot : SlotName}
    (h : checked kind name = .ok slot) : slot.text = name := by
  rw [checked] at h
  split at h
  · rename_i plain hplain
    rw [ofString?] at hplain
    split at hplain
    · cases hplain
    · cases hplain
      split at h
      · cases h
        rfl
      · cases h
  · cases h

variable [UrlReader]

/-! ### The rules -/

/-- The piece for a value at a place that requires `level`. -/
inductive Value.Compiles (f : Schema) (level : TrustLevel) : Value → Piece → Prop
  | concrete {s : SafeString} {text : String} (hcheck : s.check level = .ok text) :
      Compiles f level (.concrete s) (.text text)
  | deferred {v w : Var} (hoffer : f.Offers w v.name (v.level ⊔ level)) :
      Compiles f level (.deferred v) (.step (.scalar w none))

/-- The piece for a text, reflowed now if it is known and else when it is rendered. -/
inductive Value.TextCompiles (o : LayoutOptions) (f : Schema) (depth : ℕ) (width : Option ℕ) :
    Value → Piece → Prop
  | concrete {s : SafeString} {checked text : String} (hcheck : s.check .textSafe = .ok checked)
      (hreflow : (o.reflow depth width).apply checked = .ok text) :
      TextCompiles o f depth width (.concrete s) (.text text)
  | deferred {v w : Var} (hoffer : f.Offers w v.name (v.level ⊔ .textSafe)) :
      TextCompiles o f depth width (.deferred v) (.step (.scalar w
        (if 0 < width.getD o.textWidth then some (o.reflow depth width) else none)))

/-- A text is a value at the place of a text. -/
theorem Value.TextCompiles.compiles {o : LayoutOptions} {f : Schema} {depth : ℕ}
    {width : Option ℕ} {value : Value} {piece : Piece}
    (h : value.TextCompiles o f depth width piece) :
    ∃ unwrapped, value.Compiles f .textSafe unwrapped := by
  cases h with
  | concrete hcheck _ => exact ⟨_, .concrete hcheck⟩
  | deferred hoffer => exact ⟨_, .deferred hoffer⟩

/-- The pieces for an attribute. -/
inductive Attribute.Compiles (f : Schema) (a : Attribute) : List Piece → Prop
  | intro {slot : SlotName} {piece : Piece} (hname : SlotName.checked .attribute a.name = .ok slot)
      (hvalue : a.value.Compiles f a.required piece) :
      Compiles f a [.text s!" {a.name}=\"", piece, .text "\""]

/-- The pieces for the opening tag of an element. -/
inductive Element.OpeningCompiles (f : Schema) (e : Element) : List Piece → Prop
  | intro {attributes : List (List Piece)}
      (hattributes : List.Forall₂ (Attribute.Compiles f)
        (Attribute.lastOfEachName e.attributes) attributes) :
      OpeningCompiles f e (.text s!"<{e.name}" :: attributes.flatten
        ++ [.text (if e.xmlSelfClosing then "/>" else ">")])

namespace Node

mutual

/-- The pieces for a tree whose surroundings have the schema `f` in the end. -/
inductive Compiles (o : LayoutOptions) : Schema → ℕ → Node → List Piece → Prop
  | closed {f : Schema} {depth : ℕ} {e : Element} {contents : List Node} {opening : List Piece}
      (hcheck : e.check contents = .ok ()) (hclosed : e.isClosed = true)
      (hopening : e.OpeningCompiles f opening) :
      Compiles o f depth (.element e contents) (e.startPieces o depth ++ opening)
  | paired {f : Schema} {depth : ℕ} {e : Element} {contents : List Node}
      {opening body : List Piece} (hcheck : e.check contents = .ok ())
      (hclosed : e.isClosed = false) (hopening : e.OpeningCompiles f opening)
      (hbody : ChildrenCompile o f (e.innerDepth o depth) contents body) :
      Compiles o f depth (.element e contents) (e.startPieces o depth ++ opening
        ++ e.breakPieces o (e.innerDepth o depth) ++ body ++ e.breakPieces o depth
        ++ [.text s!"</{e.name}>"])
  | text {f : Schema} {depth : ℕ} {value : Value} {width : Option ℕ} {piece : Piece}
      (hvalue : value.TextCompiles o f depth width piece) :
      Compiles o f depth (.text value width) [piece]
  | raw {f : Schema} {depth : ℕ} {value : Value} {piece : Piece}
      (hvalue : value.Compiles f .htmlSafe piece) : Compiles o f depth (.raw value) [piece]
  | multi {f : Schema} {depth : ℕ} {contents : List Node} {body : List Piece}
      (hbody : ChildrenCompile o f depth contents body) :
      Compiles o f depth (.multi none contents) body
  | subsection {f d : Schema} {depth : ℕ} {name : String} {prototype : Node} {t : Tag}
      {found : List Piece} (hname : t.name.text = name)
      (htag : f.subsections[t.index]? = some (t, d))
      (hfound : Compiles o d depth prototype found) :
      Compiles o f depth (.subsection name prototype)
        [.step (.subsection t (Program.assemble o found))]
  | switch {f : Schema} {depth : ℕ} {cases : List (Condition × Option Node)}
      {default : Option Node} {programs : List (Condition × Option Program)}
      {otherwise : Option Program} (hcases : CasesCompile o f depth cases programs)
      (hdefault : OutputCompiles o f depth default otherwise) :
      Compiles o f depth (.switch cases default) [.step (.switch programs otherwise)]

/-- The pieces for children, one after the other. -/
inductive ChildrenCompile (o : LayoutOptions) : Schema → ℕ → List Node → List Piece → Prop
  | nil {f : Schema} {depth : ℕ} : ChildrenCompile o f depth [] []
  | cons {f : Schema} {depth : ℕ} {child : Node} {rest : List Node} {first later : List Piece}
      (hchild : Compiles o f depth child first) (hrest : ChildrenCompile o f depth rest later) :
      ChildrenCompile o f depth (child :: rest) (first ++ later)

/-- The programs for cases, under the same conditions. -/
inductive CasesCompile (o : LayoutOptions) : Schema → ℕ → List (Condition × Option Node) →
    List (Condition × Option Program) → Prop
  | nil {f : Schema} {depth : ℕ} : CasesCompile o f depth [] []
  | cons {f : Schema} {depth : ℕ} {condition : Condition} {output : Option Node}
      {program : Option Program} {rest : List (Condition × Option Node)}
      {programs : List (Condition × Option Program)}
      (houtput : OutputCompiles o f depth output program)
      (hrest : CasesCompile o f depth rest programs) :
      CasesCompile o f depth ((condition, output) :: rest) ((condition, program) :: programs)

/-- The program for an alternative, if it has an output. -/
inductive OutputCompiles (o : LayoutOptions) : Schema → ℕ → Option Node → Option Program → Prop
  | none {f : Schema} {depth : ℕ} : OutputCompiles o f depth none none
  | some {f : Schema} {depth : ℕ} {output : Node} {found : List Piece}
      (hfound : Compiles o f depth output found) :
      OutputCompiles o f depth (some output) (some (Program.assemble o found))

end

end Node

/-- Compiling an element, told with the pieces that begin its lines. -/
theorem Node.pieces_element (o : LayoutOptions) (depth : ℕ) (e : Element)
    (contents : List Node) : (Node.element e contents).pieces o depth = (do
      Declaring.orStructure (e.check contents)
      let opening ← e.openingPieces
      if e.isClosed then return e.startPieces o depth ++ opening
      let inner ← e.enter o depth
      let body ← childPieces o inner (.element e.name) 1 contents
      return e.startPieces o depth ++ opening ++ e.breakPieces o inner ++ body
        ++ e.breakPieces o depth ++ [.text s!"</{e.name}>"]) := by
  rw [pieces]
  cases hblock : e.isBlock o with
  | true =>
      have hstyle : (e.style == .block && !o.isCompact) = true := hblock
      simp only [hstyle, hblock, Element.startPieces, Element.breakPieces, Element.enter,
        ↓reduceIte]
  | false =>
      have hstyle : (e.style == .block && !o.isCompact) = false := hblock
      simp only [hstyle, hblock, Element.startPieces, Element.breakPieces, Element.enter,
        ↓reduceIte, Bool.false_eq_true]

/-! ### Compiling follows the rules -/

/-- A value at a place yields a piece for it. -/
theorem Value.piece_ensures (level : TrustLevel) (value : Value) :
    (value.piece level).Ensures fun f piece => value.Compiles f level piece := by
  cases value with
  | concrete s =>
      rw [piece]
      refine (Declaring.orTrust_ensures (s.check level)).bind fun text => ?_
      exact .pure fun f hcheck => .concrete hcheck
  | deferred v =>
      rw [piece]
      refine (Declaring.attach_ensures v level).bind fun w => ?_
      exact .pure fun f hoffer => .deferred hoffer

/-- A text yields a piece for it. -/
theorem Value.textPiece_ensures (o : LayoutOptions) (depth : ℕ) (width : Option ℕ)
    (value : Value) :
    (value.textPiece o depth width).Ensures fun f piece =>
      value.TextCompiles o f depth width piece := by
  cases value with
  | concrete s =>
      rw [textPiece]
      refine (Declaring.orTrust_ensures (s.check .textSafe)).bind fun checked => ?_
      refine (Declaring.orOverflow_ensures _).bind fun text => ?_
      exact .pure fun f hreflow hcheck => .concrete hcheck hreflow
  | deferred v =>
      rw [textPiece]
      refine (Declaring.attach_ensures v .textSafe).bind fun w => ?_
      exact .pure fun f hoffer => .deferred hoffer

/-- An attribute yields the pieces for it. -/
theorem Attribute.pieces_ensures (a : Attribute) :
    a.pieces.Ensures fun f found => a.Compiles f found := by
  have hname : Declaring.Ensures
      (discard <| Declaring.orStructure <| SlotName.checked .attribute a.name)
      fun _ _ => ∃ slot, SlotName.checked .attribute a.name = .ok slot := by
    cases hchecked : SlotName.checked .attribute a.name with
    | ok slot => exact .pure fun _ => ⟨slot, rfl⟩
    | error e => exact .throw
  rw [pieces]
  refine hname.bind fun _ => ?_
  refine (a.value.piece_ensures a.required).bind fun piece => ?_
  exact .pure fun f hvalue ⟨_, hname⟩ => .intro hname hvalue

/-- The attributes of an element yield the pieces for each of them. -/
theorem Element.attributePieces_ensures (e : Element) : ∀ attributes : List Attribute,
    (e.attributePieces attributes).Ensures fun f found =>
      ∃ each, found = each.flatten ∧ List.Forall₂ (Attribute.Compiles f) attributes each
  | [] => .pure fun _ => ⟨[], rfl, .nil⟩
  | a :: rest => by
      rw [attributePieces]
      refine (a.pieces_ensures.within (.attribute a.name e.name)).bind fun first => ?_
      refine (e.attributePieces_ensures rest).bind fun found => ?_
      refine .pure fun f hrest hfirst => ?_
      obtain ⟨each, rfl, heach⟩ := hrest
      exact ⟨first :: each, rfl, .cons hfirst heach⟩

/-- An opening tag yields the pieces for it. -/
theorem Element.openingPieces_ensures (e : Element) :
    e.openingPieces.Ensures fun f found => e.OpeningCompiles f found := by
  rw [openingPieces]
  refine (e.attributePieces_ensures _).bind fun found => ?_
  refine .pure fun f hfound => ?_
  obtain ⟨each, rfl, heach⟩ := hfound
  exact .intro heach

namespace Node

mutual

/-- **Compiling follows the rules**: the pieces that a tree yields are pieces for it in every
later state of the schema. -/
theorem pieces_ensures (o : LayoutOptions) (depth : ℕ) : ∀ node : Node,
    (node.pieces o depth).Ensures fun f found => node.Compiles o f depth found
  | .element e contents => by
      rw [pieces]
      refine (Declaring.orStructure_ensures _).bind fun _ => ?_
      refine e.openingPieces_ensures.bind fun opening => ?_
      cases hclosed : e.isClosed with
      | true => exact .pure fun f hopening hcheck => .closed hcheck hclosed hopening
      | false =>
          have hbody := fun inner => childPieces_ensures o inner (.element e.name) 1 contents
          cases hblock : e.isBlock o with
          | true =>
              have hstyle : (e.style == .block && !o.isCompact) = true := hblock
              simp only [hstyle, ↓reduceIte, Bool.false_eq_true]
              refine (Declaring.orOverflow_ensures _).bind fun inner => ?_
              refine (hbody inner).bind fun body => ?_
              refine .pure fun f hbody hinner hopening hcheck => ?_
              obtain ⟨rfl, -⟩ := Counter.add_eq_ok_iff.mp hinner
              have hdepth : e.innerDepth o depth = depth + 1 := if_pos hblock
              rw [← hdepth] at hbody
              have hpaired := Compiles.paired hcheck hclosed hopening hbody
              rwa [Element.startPieces, Element.breakPieces, Element.breakPieces, if_pos hblock,
                if_pos hblock, if_pos hblock, hdepth] at hpaired
          | false =>
              have hstyle : (e.style == .block && !o.isCompact) = false := hblock
              simp only [hstyle, ↓reduceIte, Bool.false_eq_true, pure_bind]
              refine (hbody depth).bind fun body => ?_
              refine .pure fun f hbody hopening hcheck => ?_
              have hdepth : e.innerDepth o depth = depth := if_neg (by simp [hblock])
              have hpaired := Compiles.paired hcheck hclosed hopening (hdepth.symm ▸ hbody)
              simpa [Element.startPieces, Element.breakPieces, hblock] using hpaired
  | .text value width => by
      rw [pieces]
      refine (value.textPiece_ensures o depth width).bind fun piece => ?_
      exact .pure fun f hvalue => .text hvalue
  | .raw value => by
      rw [pieces]
      refine (value.piece_ensures .htmlSafe).bind fun piece => ?_
      exact .pure fun f hvalue => .raw hvalue
  | .multi (some error) contents => by
      rw [pieces]
      exact .throw
  | .multi none contents => by
      rw [pieces]
      exact (childPieces_ensures o depth .multi 1 contents).mono fun f _ => .multi
  | .subsection name prototype => by
      rw [pieces]
      refine (Declaring.orStructure_ensures _).bind fun slot => ?_
      have hprototype := (pieces_ensures o depth prototype).within (.subsection name)
      refine (hprototype.inSubsection slot).bind fun (t, found) => ?_
      refine .pure fun f hfound hslot => ?_
      obtain ⟨d, htag, hname, hfound⟩ := hfound
      exact .subsection (by rw [hname, SlotName.text_of_checked hslot]) htag hfound
  | .switch cases default => by
      rw [pieces]
      refine (casePrograms_ensures o depth 1 cases.length cases).bind fun programs => ?_
      refine (defaultProgram_ensures o depth default).bind fun otherwise => ?_
      exact .pure fun f hdefault hcases => .switch hcases hdefault

/-- Children yield the pieces for them. -/
theorem childPieces_ensures (o : LayoutOptions) (depth : ℕ) (parent : Parent) (number : ℕ) :
    ∀ contents : List Node, (childPieces o depth parent number contents).Ensures fun f found =>
      ChildrenCompile o f depth contents found
  | [] => .pure fun _ => .nil
  | child :: rest => by
      rw [childPieces]
      refine ((pieces_ensures o depth child).within (.child number parent)).bind fun first => ?_
      refine (childPieces_ensures o depth parent (number + 1) rest).bind fun later => ?_
      exact .pure fun f hrest hchild => .cons hchild hrest

/-- Cases yield the programs for them. -/
theorem casePrograms_ensures (o : LayoutOptions) (depth number count : ℕ) :
    ∀ cases : List (Condition × Option Node),
      (casePrograms o depth number count cases).Ensures fun f programs =>
        CasesCompile o f depth cases programs
  | [] => .pure fun _ => .nil
  | (condition, none) :: rest => by
      rw [casePrograms]
      refine (casePrograms_ensures o depth (number + 1) count rest).bind fun programs => ?_
      exact .pure fun f hrest => .cons .none hrest
  | (condition, some output) :: rest => by
      rw [casePrograms]
      refine ((pieces_ensures o depth output).within (.case number count)).bind fun found => ?_
      refine (casePrograms_ensures o depth (number + 1) count rest).bind fun programs => ?_
      exact .pure fun f hrest hfound => .cons (.some hfound) hrest

/-- The default of a switch yields the program for it. -/
theorem defaultProgram_ensures (o : LayoutOptions) (depth : ℕ) : ∀ default : Option Node,
    (defaultProgram o depth default).Ensures fun f program =>
      OutputCompiles o f depth default program
  | none => .pure fun _ => .none
  | some output => by
      rw [defaultProgram]
      refine ((pieces_ensures o depth output).within .defaultCase).bind fun found => ?_
      exact .pure fun f hfound => .some hfound

end

/-- **What a template is made of**: pieces for the tree in the surroundings that its schema
describes, which is a later state of the schema that was declared on. -/
theorem compiles_of_compile {o : LayoutOptions} {node : Node} {scope : Scope} {t : Template}
    {next : ℕ} (hwf : scope.schema.WellFormed) (h : node.compile o scope = (.ok t, next)) :
    t.schema.WellFormed ∧ scope.schema.Extends t.schema ∧
      ∃ found, node.Compiles o t.schema o.rootDepth found ∧
        t.program = Program.assemble o found := by
  rw [compile] at h
  split at h
  · rename_i found final hfound
    cases h
    obtain ⟨hwf', hext, hpost⟩ := (pieces_ensures o o.rootDepth node).ok hwf hfound
    exact ⟨hwf', hext, found, hpost (.refl _), rfl⟩
  · cases h

/-! ### Runs on fixed inputs -/

/-- Compile a tree against a new schema, bind arguments to the template, and ask whether
something holds of the two. -/
def runs (o : LayoutOptions) (node : Node) (args : List BindArg)
    (p : Template → ValueSet → Bool) : Bool :=
  (node.compile o (.newRoot 1)).1.toOption.any fun t => (t.bind args).toOption.any (p t)

/-- If a tree runs, there is a template with values that can be spoken of. -/
theorem exists_of_runs {o : LayoutOptions} {node : Node} {args : List BindArg}
    {p : Template → ValueSet → Bool} (h : node.runs o args p = true) :
    ∃ t next vs, node.compile o (.newRoot 1) = (.ok t, next) ∧ t.bind args = .ok vs ∧
      p t vs = true := by
  rw [runs] at h
  rcases hcompile : node.compile o (.newRoot 1) with ⟨_ | t, next⟩
  · rw [hcompile] at h
    cases h
  · rw [hcompile] at h
    cases hbind : t.bind args with
    | error e =>
        simp [Except.toOption, hbind] at h
    | ok vs =>
        have hp : p t vs = true := by simpa [Except.toOption, hbind] using h
        exact ⟨t, next, vs, rfl, hbind, hp⟩

/-- A paragraph that uses one variable in an attribute that requires nothing and in a text,
and repeats a text for rows. -/
def profile : Node :=
  .element ⟨"p", [.ofName "data-user" (.named "user")], .block, false, false, none⟩
    [.text (.named "user") none, .subsection "skills" (.text (.named "skill") (some 4))]

/-- The variable of `profile` that is not in rows. -/
def profileUser : Value :=
  .named "user"

/-- The variable in the rows of `profile`. -/
def profileSkill : Value :=
  .named "skill"

/-- Arguments for `profile`: untrusted strings, one of them in the first of two rows. -/
def profileArgs (user skill : String) : List BindArg :=
  [.scalar (.name "user") (.untrusted user) .untrusted,
    .rows (.name "skills") [[.scalar (.name "skill") (.untrusted skill) .untrusted], []]]

end Node

end TrustedHtml
