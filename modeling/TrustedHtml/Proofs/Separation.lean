import TrustedHtml.Proofs.FreshLine
import TrustedHtml.Proofs.Traversal
import TrustedHtml.Url.Web

/-!
# Static Text in Pieces

Leaving static text in pieces is meant for looking at the program. It changes nothing about what
is declared, what fails and what can be bound: two runs of the compiler that differ in nothing
else go in lockstep, and `Declaring.Couples` is what carries that through a tree.

It can change the output, though. Whether a block element finds itself on a fresh line is judged
from the last piece alone if text is left in pieces, so that a text which is empty or blank hides
the line break in front of it. `Node.separate_differs` is such a tree. Where no text or fragment
that is known is blank, and in the compact layout, which has no fresh lines, the last piece tells
as much as all of them, and the output is the same.

## Main definitions

* `Declaring.Couples`: two operations in lockstep.
* `LayoutOptions.Discerns`: fresh lines can be told from the last piece.

## Main results

* `Node.pieces_couples`: compiling with text merged and in pieces goes in lockstep.
* `Node.compile_separate`: **leaving text in pieces changes nothing** but the chunks.
* `Node.separate_differs`: it does change the output if a text is blank.
-/

namespace TrustedHtml

/-! ### Operations in lockstep -/

namespace Declaring

variable {α β : Type}

/-- **Operations in lockstep**: from the same well-formed schema they both succeed, with answers
that are related, and leave the same schema, well-formed and grown, or they both fail, for the
same reason, and leave the same schema. -/
def Couples (R : α → α → Prop) (act act' : Declaring α) : Prop :=
  ∀ s : Scope, s.schema.WellFormed →
    (∃ a b t, act s = .ok a t ∧ act' s = .ok b t ∧ t.schema.WellFormed ∧
      s.schema.Extends t.schema ∧ R a b) ∨
    ∃ e t, act s = .error e t ∧ act' s = .error e t

variable {R : α → α → Prop} {act act' : Declaring α}

/-- Answers without a declaration. -/
theorem Couples.pure {a b : α} (h : R a b) : Couples R (Pure.pure a) (Pure.pure b) :=
  fun s hs => .inl ⟨a, b, s, rfl, rfl, hs, .refl _, h⟩

/-- An operation goes in lockstep with itself, and its answer is as it ensures. -/
theorem Couples.of_ensures {post : Schema → α → Prop} (h : act.Ensures post) :
    Couples (fun a b => a = b ∧ ∃ f, post f a) act act := by
  intro s hs
  cases hact : act s with
  | ok a t =>
      obtain ⟨hwf, hext, hpost⟩ := h.ok hs hact
      exact .inl ⟨a, a, t, rfl, rfl, hwf, hext, rfl, t.schema, hpost (.refl _)⟩
  | error e t => exact .inr ⟨e, t, rfl, rfl⟩

/-- One operation after another. -/
theorem Couples.bind {S : β → β → Prop} {k k' : α → Declaring β} (h : Couples R act act')
    (hk : ∀ a b, R a b → Couples S (k a) (k' b)) : Couples S (act >>= k) (act' >>= k') := by
  intro s hs
  simp only [Bind.bind, EStateM.bind]
  obtain ⟨a, b, t, ha, hb, hwf, hext, hab⟩ | ⟨e, t, ha, hb⟩ := h s hs
  · rw [ha, hb]
    obtain ⟨c, d, u, hc, hd, hwf', hext', hcd⟩ | hfails := hk a b hab t hwf
    · exact .inl ⟨c, d, u, hc, hd, hwf', hext.trans hext', hcd⟩
    · exact .inr hfails
  · rw [ha, hb]
    exact .inr ⟨e, t, rfl, rfl⟩

/-- Describing failures changes nothing else. -/
theorem Couples.within (step : Step) (h : Couples R act act') :
    Couples R (act.within step) (act'.within step) := by
  intro s hs
  simp only [Declaring.within]
  obtain ⟨a, b, t, ha, hb, hwf, hext, hab⟩ | ⟨e, t, ha, hb⟩ := h s hs
  · rw [ha, hb]
    exact .inl ⟨a, b, t, rfl, rfl, hwf, hext, hab⟩
  · rw [ha, hb]
    exact .inr ⟨e.within step, t, rfl, rfl⟩

/-- Working on the schema of the rows. -/
theorem Couples.inSubsection (h : Couples R act act') (name : SlotName) :
    Couples (fun a b => a.1 = b.1 ∧ R a.2 b.2) (Declaring.inSubsection name act)
      (Declaring.inSubsection name act') := by
  intro s hs
  obtain ⟨hsub, -⟩ := Scope.getElem?_declareSubsection hs name
  have hchild := (Scope.declareSubsection_wellFormed hs name).child (List.mem_of_getElem? hsub)
  simp only [Declaring.inSubsection]
  obtain ⟨a, b, t, ha, hb, hwf, hext, hab⟩ | ⟨e, t, ha, hb⟩ := h ⟨_, _⟩ hchild
  · rw [ha, hb]
    obtain ⟨hwf', hext'⟩ := setChild_declareSubsection hs name hwf hext
    exact .inl ⟨_, _, _, rfl, rfl, hwf', hext', rfl, hab⟩
  · rw [ha, hb]
    exact .inr ⟨_, _, rfl, rfl⟩

end Declaring

/-! ### Known strings that are not blank -/

/-- A string that is known has a character that is not blank. -/
def Value.IsSolid : Value → Prop
  | .concrete s => ∃ c ∈ s.text.toList, Text.isBlank c = false
  | .deferred _ => True

/-- A text or fragment that is known is not blank. Attributes are always quoted. -/
def Leaf.IsSolid : Leaf → Prop
  | .attribute _ => True
  | .text value _ => value.IsSolid
  | .raw value => value.IsSolid

/-- Whether it can be told from the last piece if the output stands on a fresh line: the layout
has no fresh lines, or no string that is known is blank. -/
def LayoutOptions.Discerns (o : LayoutOptions) (leaves : List Leaf) : Prop :=
  o.isCompact = true ∨ ∀ leaf ∈ leaves, leaf.IsSolid

/-- What can be told for leaves can be told for fewer. -/
theorem LayoutOptions.Discerns.of_append {o : LayoutOptions} {leaves later : List Leaf}
    (h : o.Discerns (leaves ++ later)) : o.Discerns leaves ∧ o.Discerns later := by
  obtain hcompact | hsolid := h
  · exact ⟨.inl hcompact, .inl hcompact⟩
  · rw [List.forall_mem_append] at hsolid
    exact ⟨.inr hsolid.1, .inr hsolid.2⟩

/-! ### Pieces of two runs -/

/-- Pieces of two runs match if they are alike and steady, as far as fresh lines can be discerned
with the leaves they come from. -/
def Piece.Match (o : LayoutOptions) (leaves : List Leaf) (found found' : List Piece) : Prop :=
  o.Discerns leaves → List.Forall₂ Alike found found' ∧ Steady o found

/-- Pieces are alike themselves. -/
theorem Piece.alike_refl (pieces : List Piece) : List.Forall₂ Alike pieces pieces :=
  List.forall₂_same.mpr fun piece _ => .refl piece

/-- Pieces that match put out the same, with text merged or in pieces. -/
theorem Piece.Match.same {o : LayoutOptions} {leaves : List Leaf} {found found' : List Piece}
    (h : Match o leaves found found') (hleaves : o.Discerns leaves) (separate : Bool) :
    (Program.assemble o found).Same (Program.assemble (o.setSeparate separate) found') :=
  Program.same_assemble (h hleaves).1 (h hleaves).2 separate

/-! ### What is steady -/

/-- A line that is begun in front of an element is steady. -/
theorem Element.steady_startPieces (o : LayoutOptions) (depth : ℕ) (e : Element) :
    Piece.Steady o (e.startPieces o depth) := by
  rw [startPieces]
  split
  · rename_i hblock
    have hlayout : o.isCompact = false := by
      rw [isBlock, Bool.and_eq_true, Bool.not_eq_true'] at hblock
      exact hblock.2
    exact .freshLine hlayout .nil
  · exact .nil

/-- A line that is begun within an element is steady. -/
theorem Element.steady_breakPieces (o : LayoutOptions) (depth : ℕ) (e : Element) :
    Piece.Steady o (e.breakPieces o depth) := by
  rw [breakPieces]
  split
  · exact .text (.inr (Assembly.isSolid_lineBreak o depth)) .nil
  · exact .nil

/-- A closing tag is steady. -/
theorem Element.steady_closing (o : LayoutOptions) (e : Element) :
    Piece.Steady o [.text s!"</{e.name}>"] :=
  .text (.inr ⟨'<', by simp [toString], by decide⟩) .nil

section

variable [UrlReader] {o : LayoutOptions} {f : Schema}

/-- A value in quotes is steady, whatever it is. -/
theorem Attribute.Compiles.steady {a : Attribute} {found : List Piece} (h : a.Compiles f found) :
    Piece.Steady o found := by
  have hname : Assembly.IsSolid s!" {a.name}=\"" := ⟨'=', by simp [toString], by decide⟩
  have hquote : Assembly.IsSolid "\"" := ⟨'"', by simp, by decide⟩
  obtain ⟨-, hvalue⟩ := h
  generalize a.value = value at hvalue
  cases hvalue with
  | concrete => exact .text (.inr hname) (.covered hquote .nil)
  | deferred => exact .text (.inr hname) (.step (.text (.inr hquote) .nil))

/-- Attributes are steady. -/
theorem Attribute.steady_of_forall₂ {attributes : List Attribute} {each : List (List Piece)}
    (h : List.Forall₂ (Attribute.Compiles f) attributes each) : Piece.Steady o each.flatten := by
  induction h with
  | nil => exact .nil
  | cons ha _ ih => exact ha.steady.append ih

/-- An opening tag is steady. -/
theorem Element.OpeningCompiles.steady {e : Element} {opening : List Piece}
    (h : e.OpeningCompiles f opening) : Piece.Steady o opening := by
  obtain ⟨hattributes⟩ := h
  have hstart : Assembly.IsSolid s!"<{e.name}" := ⟨'<', by simp [toString], by decide⟩
  have hend : Assembly.IsSolid (if e.xmlSelfClosing then "/>" else ">") := by
    refine ⟨'>', ?_, by decide⟩
    cases e.xmlSelfClosing <;> simp
  exact .text (.inr hstart)
    ((Attribute.steady_of_forall₂ hattributes).append (.text (.inr hend) .nil))

/-- A text is steady if fresh lines can be discerned with it. -/
theorem Value.TextCompiles.steady {depth : ℕ} {width : Option ℕ} {value : Value} {piece : Piece}
    (h : value.TextCompiles o f depth width piece) (hsolid : o.Discerns [.text value width]) :
    Piece.Steady o [piece] := by
  cases h with
  | concrete hcheck hreflow =>
      refine .text (hsolid.imp id fun hsolid => ?_) .nil
      rw [List.forall_mem_singleton] at hsolid
      exact Assembly.isSolid_of_not_blank (Reflow.exists_not_blank_of_apply hreflow
        (SafeString.exists_not_blank_of_check (.inl rfl) hcheck hsolid))
  | deferred => exact .step .nil

/-- A fragment is steady if fresh lines can be discerned with it. -/
theorem Value.Compiles.steady {value : Value} {piece : Piece}
    (h : value.Compiles f .htmlSafe piece) (hsolid : o.Discerns [.raw value]) :
    Piece.Steady o [piece] := by
  cases h with
  | concrete hcheck =>
      refine .text (hsolid.imp id fun hsolid => ?_) .nil
      rw [List.forall_mem_singleton] at hsolid
      exact Assembly.isSolid_of_not_blank
        (SafeString.exists_not_blank_of_check (.inr rfl) hcheck hsolid)
  | deferred => exact .step .nil

/-! ### Trees in lockstep -/

namespace Node

open Declaring

mutual

/-- **Compiling goes in lockstep** with text merged and in pieces. -/
theorem pieces_couples (o : LayoutOptions) (separate : Bool) (depth : ℕ) : ∀ node : Node,
    Couples (Piece.Match o node.leaves) (node.pieces o depth)
      (node.pieces (o.setSeparate separate) depth)
  | .element e contents => by
      rw [pieces_element, pieces_element, leaves]
      refine (Couples.of_ensures (orStructure_ensures _)).bind fun _ _ _ => ?_
      refine (Couples.of_ensures e.openingPieces_ensures).bind fun opening _ hsame => ?_
      obtain ⟨rfl, f, hopening⟩ := hsame
      have hstart := (e.steady_startPieces o depth).append hopening.steady
      cases hclosed : e.isClosed with
      | true => exact .pure fun _ => ⟨Piece.alike_refl _, hstart⟩
      | false =>
          have henter : (e.enter o depth).Ensures fun _ _ => True := by
            rw [Element.enter]
            split
            · exact (orOverflow_ensures _).mono fun _ _ _ => trivial
            · exact .pure fun _ => trivial
          refine (Couples.of_ensures henter).bind fun inner _ hinner => ?_
          obtain ⟨rfl, -⟩ := hinner
          refine (childPieces_couples o separate inner _ 1 contents).bind fun body body' hbody => ?_
          refine .pure fun hleaves => ?_
          obtain ⟨halike, hsteady⟩ := hbody hleaves.of_append.2
          constructor
          · exact List.rel_append (List.rel_append (List.rel_append (Piece.alike_refl _) halike)
              (Piece.alike_refl _)) (Piece.alike_refl _)
          · exact (((hstart.append (e.steady_breakPieces o inner)).append hsteady).append
              (e.steady_breakPieces o depth)).append (e.steady_closing o)
  | .text value width => by
      rw [pieces, pieces, leaves]
      refine (Couples.of_ensures (value.textPiece_ensures o depth width)).bind
        fun piece _ hsame => ?_
      obtain ⟨rfl, f, hpiece⟩ := hsame
      exact .pure fun hleaves => ⟨Piece.alike_refl _, hpiece.steady hleaves⟩
  | .raw value => by
      rw [pieces, pieces, leaves]
      refine (Couples.of_ensures (value.piece_ensures .htmlSafe)).bind fun piece _ hsame => ?_
      obtain ⟨rfl, f, hpiece⟩ := hsame
      exact .pure fun hleaves => ⟨Piece.alike_refl _, hpiece.steady hleaves⟩
  | .multi (some error) contents => by
      rw [pieces, pieces]
      exact fun s _ => .inr ⟨_, s, rfl, rfl⟩
  | .multi none contents => by
      rw [pieces, pieces, leaves]
      exact childPieces_couples o separate depth .multi 1 contents
  | .subsection name prototype => by
      rw [pieces, pieces, leaves]
      refine (Couples.of_ensures (orStructure_ensures _)).bind fun slot _ hslot => ?_
      obtain ⟨rfl, -⟩ := hslot
      have hprototype := (pieces_couples o separate depth prototype).within (.subsection name)
      refine (hprototype.inSubsection slot).bind fun (t, found) (t', found') hfound => ?_
      obtain ⟨rfl, hmatch⟩ := hfound
      exact .pure fun hleaves =>
        ⟨.cons (.step (Program.outcome_subsection (hmatch.same hleaves separate) t)) .nil,
          .step .nil⟩
  | .switch cases default => by
      rw [pieces, pieces, leaves]
      refine (casePrograms_couples o separate depth 1 _ cases).bind
        fun programs programs' hcases => ?_
      refine (defaultProgram_couples o separate depth default).bind
        fun otherwise otherwise' hdefault => ?_
      refine .pure fun hleaves => ⟨.cons (.step ?_) .nil, .step .nil⟩
      exact Program.outcome_switch (hcases hleaves.of_append.1) (hdefault hleaves.of_append.2)

/-- Compiling children goes in lockstep. -/
theorem childPieces_couples (o : LayoutOptions) (separate : Bool) (depth : ℕ) (parent : Parent)
    (number : ℕ) : ∀ contents : List Node,
      Couples (Piece.Match o (childLeaves contents)) (childPieces o depth parent number contents)
        (childPieces (o.setSeparate separate) depth parent number contents)
  | [] => .pure fun _ => ⟨.nil, .nil⟩
  | child :: rest => by
      rw [childPieces, childPieces, childLeaves]
      refine ((pieces_couples o separate depth child).within (.child number parent)).bind
        fun first first' hfirst => ?_
      refine (childPieces_couples o separate depth parent (number + 1) rest).bind
        fun later later' hlater => ?_
      refine .pure fun hleaves => ?_
      obtain ⟨halike, hsteady⟩ := hfirst hleaves.of_append.1
      obtain ⟨halike', hsteady'⟩ := hlater hleaves.of_append.2
      exact ⟨List.rel_append halike halike', hsteady.append hsteady'⟩

/-- Compiling cases goes in lockstep. -/
theorem casePrograms_couples (o : LayoutOptions) (separate : Bool) (depth number count : ℕ) :
    ∀ cases : List (Condition × Option Node),
      Couples (fun programs programs' => o.Discerns (caseLeaves cases) →
          List.Forall₂ (fun a b => a.1 = b.1 ∧ Option.Rel Program.Same a.2 b.2) programs programs')
        (casePrograms o depth number count cases)
        (casePrograms (o.setSeparate separate) depth number count cases)
  | [] => .pure fun _ => .nil
  | (condition, none) :: rest => by
      rw [casePrograms, casePrograms, caseLeaves]
      refine (casePrograms_couples o separate depth (number + 1) count rest).bind
        fun programs programs' hrest => ?_
      exact .pure fun hleaves => .cons ⟨rfl, .none⟩ (hrest hleaves.of_append.2)
  | (condition, some output) :: rest => by
      rw [casePrograms, casePrograms, caseLeaves]
      refine ((pieces_couples o separate depth output).within (.case number count)).bind
        fun found found' hfound => ?_
      refine (casePrograms_couples o separate depth (number + 1) count rest).bind
        fun programs programs' hrest => ?_
      exact .pure fun hleaves =>
        .cons ⟨rfl, .some (hfound.same hleaves.of_append.1 separate)⟩ (hrest hleaves.of_append.2)

/-- Compiling the default of a switch goes in lockstep. -/
theorem defaultProgram_couples (o : LayoutOptions) (separate : Bool) (depth : ℕ) :
    ∀ default : Option Node,
      Couples (fun program program' => o.Discerns (outputLeaves default) →
          Option.Rel Program.Same program program')
        (defaultProgram o depth default) (defaultProgram (o.setSeparate separate) depth default)
  | none => .pure fun _ => .none
  | some output => by
      rw [defaultProgram, defaultProgram, outputLeaves]
      refine ((pieces_couples o separate depth output).within .defaultCase).bind
        fun found found' hfound => ?_
      exact .pure fun hleaves => .some (hfound.same hleaves separate)

end

/-- **Leaving static text in pieces changes nothing** about what is declared, what fails, with
which error, and what can be bound to the template with which result. What is rendered is the
same too, if the layout is compact or no text or fragment that is known is blank. -/
theorem compile_separate {node : Node} {scope : Scope} (hwf : scope.schema.WellFormed)
    (separate : Bool) :
    (∃ e next, node.compile o scope = (.error e, next) ∧
      node.compile (o.setSeparate separate) scope = (.error e, next)) ∨
    ∃ t t' next, node.compile o scope = (.ok t, next) ∧
      node.compile (o.setSeparate separate) scope = (.ok t', next) ∧ t.schema = t'.schema ∧
      ∀ args, t.bind args = t'.bind args ∧ (o.Discerns node.leaves →
        ∀ vs, t.bind args = .ok vs → t.renderToString vs = t'.renderToString vs) := by
  have hdepth : (o.setSeparate separate).rootDepth = o.rootDepth := rfl
  obtain ⟨found, found', final, hfound, hfound', -, -, hmatch⟩ | ⟨e, final, he, he'⟩ :=
    pieces_couples o separate o.rootDepth node scope hwf
  · have hcompile : node.compile o scope =
        (.ok ⟨final.schema, Program.assemble o found⟩, final.next) := by
      rw [compile, hfound]
    have hcompile' : node.compile (o.setSeparate separate) scope =
        (.ok ⟨final.schema, Program.assemble (o.setSeparate separate) found'⟩, final.next) := by
      rw [compile, hdepth, hfound']
    refine .inr ⟨_, _, _, hcompile, hcompile', rfl, fun args => ⟨rfl, fun hleaves vs hbind => ?_⟩⟩
    exact renderToString_of_same hwf hwf hcompile hcompile' hbind hbind
      (hmatch.same hleaves separate)
  · refine .inl ⟨e, final.next, ?_, ?_⟩
    · rw [compile, he]
    · rw [compile, hdepth, he']

end Node

end

/-! ### Runs with text merged and in pieces -/

namespace Node

/-- A paragraph with a known text, a paragraph of its own, and a text for every row. -/
def summary : Node :=
  .ofElement "p" [.node (.literal "Skills:"),
    .node (.ofElement "p" [.node (.ofText profileUser)]),
    .node (.subsection "skills" (.ofElement "p" [.node (.ofText profileSkill)]))]

/-- No text of `Node.summary` is blank. -/
theorem discerns_summary : LayoutOptions.tidy.Discerns summary.leaves := by
  have hleaves : summary.leaves = [.text (.literal "Skills:") none, .text profileUser none,
      .text profileSkill none] := rfl
  rw [hleaves]
  refine .inr ?_
  simp only [List.forall_mem_cons, Leaf.IsSolid, Value.literal, Value.IsSolid]
  exact ⟨⟨'S', by decide, by decide⟩, trivial, trivial, by simp⟩

/-- The tidy layout of `Node.summary` is the same with text merged and in pieces. -/
theorem compile_separate_summary : ∃ t t' next vs text,
    summary.compile .tidy (.newRoot 1) = (.ok t, next) ∧
      summary.compile (LayoutOptions.tidy.setSeparate true) (.newRoot 1) = (.ok t', next) ∧
      t.bind (profileArgs "<jd>" "a b") = .ok vs ∧ t'.bind (profileArgs "<jd>" "a b") = .ok vs ∧
      t.renderToString vs = .ok text ∧ t'.renderToString vs = .ok text := by
  have hruns : summary.runs .tidy (profileArgs "<jd>" "a b") (fun t vs =>
      (t.renderToString vs).toBool) = true := by
    decide +kernel
  obtain ⟨t, next, vs, hcompile, hbind, hrender⟩ := exists_of_runs hruns
  have hroot : (Scope.newRoot 1).schema.WellFormed := Schema.wellFormed_of_empty rfl rfl
  obtain ⟨e, next', he, -⟩ | ⟨t₁, t', next', ht, ht', -, hsame⟩ :=
    @compile_separate _ .tidy summary _ hroot true
  · rw [hcompile] at he
    cases he
  · rw [hcompile] at ht
    cases ht
    obtain ⟨hbinds, hrenders⟩ := hsame (profileArgs "<jd>" "a b")
    cases htext : t.renderToString vs with
    | error e =>
        rw [htext] at hrender
        cases hrender
    | ok text =>
        exact ⟨t, t', next, vs, text, hcompile, ht', hbind, hbinds ▸ hbind, htext,
          (hrenders discerns_summary vs hbind).symm.trans htext⟩

/-- A paragraph in a paragraph, behind an empty text. -/
def hiddenLineBreak : Node :=
  .ofElement "p" [.node (.literal ""), .node (.ofElement "p" [])]

/-- **The output can change** if a text is blank: left in pieces, the empty text hides the line
break in front of the inner paragraph, and a second one is written. -/
theorem separate_differs :
    ¬ ∀ (node : Node) (o : LayoutOptions) (separate : Bool) (scope : Scope) (t t' : Template)
        (next next' : ℕ) (args : List BindArg) (vs vs' : ValueSet), scope.schema.WellFormed →
      node.compile o scope = (.ok t, next) →
      node.compile (o.setSeparate separate) scope = (.ok t', next') →
      t.bind args = .ok vs → t'.bind args = .ok vs' →
      t.renderToString vs = t'.renderToString vs' := by
  intro hclaim
  have hmerged : hiddenLineBreak.runs .tidy [] (fun t vs =>
      decide (t.renderToString vs = .ok "<p>\n  <p>\n    \n  </p>\n</p>")) = true := by
    decide +kernel
  have hpieces : hiddenLineBreak.runs (LayoutOptions.tidy.setSeparate true) [] (fun t vs =>
      decide (t.renderToString vs = .ok "<p>\n  \n  <p>\n    \n  </p>\n</p>")) = true := by
    decide +kernel
  obtain ⟨t, next, vs, hcompile, hbind, hrender⟩ := exists_of_runs hmerged
  obtain ⟨t', next', vs', hcompile', hbind', hrender'⟩ := exists_of_runs hpieces
  have hroot : (Scope.newRoot 1).schema.WellFormed := Schema.wellFormed_of_empty rfl rfl
  have hsame := hclaim hiddenLineBreak .tidy true (.newRoot 1) t t' next next' [] vs vs' hroot
    hcompile hcompile' hbind hbind'
  rw [of_decide_eq_true hrender, of_decide_eq_true hrender'] at hsame
  exact absurd (Except.ok.inj hsame) (by decide)

end Node

end TrustedHtml
