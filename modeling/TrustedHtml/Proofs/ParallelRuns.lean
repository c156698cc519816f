import TrustedHtml.Proofs.Compiled
import TrustedHtml.Proofs.FreshLine
import TrustedHtml.Proofs.Identities
import TrustedHtml.Template.Renumber

/-!
# Two Compilations Side by Side

A tree is compiled twice: against two scopes that differ in their identities, as one
replacement `f` of identities tells, and with static text merged in one run and perhaps left in
pieces in the other. `Declaring.Parallel` says that the runs end alike. Either both succeed and
leave scopes that still differ by `f` alone, or both fail with the same error. There is one rule
for each way in which compiling is made of operations.

The pieces of two runs correspond if they are the same text, the same fresh line, or steps of the
same kind whose variables differ by `f`. What is asked of the programs in a step is left open as a
relation `P`. It only has to hold of whatever is assembled from pieces that correspond
(`Program.Assembles`), so it is the programs that a proof is concerned with, and not the runs.

## Main definitions

* `Scope.Renumbered`: scopes that differ in their identities.
* `Declaring.Parallel`: operations that end alike.
* `Piece.Corresponds`: pieces of two runs.

## Main results

* `Node.pieces_parallel`: **a tree compiles alike** against scopes that differ in identities.
* `Node.compile_parallel`: what that says about templates.
-/

namespace TrustedHtml

/-! ### Scopes with other identities -/

namespace Schema

mutual

/-- A schema stays the same if every identity does. -/
theorem renumber_id : ∀ s : Schema, s.renumber (fun i => i) = s
  | ⟨_, _, nesting, scalars, subsections⟩ => by
      have hscalars : scalars.map (·.renumber fun i => i) = scalars := by simp [Var.renumber]
      have hnesting : nesting.map (·.renumber fun i => i) = nesting := by simp [Nesting.renumber]
      rw [renumber, hscalars, hnesting, renumberAll_id subsections]

/-- Subsections stay the same if every identity does. -/
theorem renumberAll_id : ∀ subsections : List (Tag × Schema),
    renumberAll (fun i => i) subsections = subsections
  | [] => rfl
  | (t, child) :: rest => by
      rw [renumberAll, renumber_id child, renumberAll_id rest]
      rfl

end

end Schema

namespace Scope

/-- **Scopes that differ in their identities**: `f` takes those of one schema to those of the
other, and it does so for the identities that are given out next. -/
structure Renumbered (f : SchemaId → SchemaId) (s s' : Scope) : Prop where
  schema : s'.schema = s.schema.renumber f
  next : ∀ k, f ⟨s.next + k⟩ = ⟨s'.next + k⟩

variable {f : SchemaId → SchemaId} {s s' : Scope}

/-- A scope differs from itself in nothing. -/
theorem Renumbered.refl (s : Scope) : s.Renumbered id s where
  schema := s.schema.renumber_id.symm
  next _ := rfl

/-- New root schemas differ in their identities by a shift. -/
theorem renumbered_newRoot (next shift : ℕ) :
    (newRoot next).Renumbered (fun id => ⟨id.number + shift⟩) (newRoot (next + shift)) where
  schema := rfl
  next k := by simp [newRoot, Nat.add_right_comm]

/-- A variable that is declared in both is the same up to its identity. -/
theorem Renumbered.declare (h : s.Renumbered f s') (name : SlotName) (level : TrustLevel) :
    (s'.schema.declare name level).1 = (s.schema.declare name level).1.renumber f ∧
      Renumbered f ⟨(s.schema.declare name level).2, s.next⟩
        ⟨(s'.schema.declare name level).2, s'.next⟩ := by
  refine ⟨?_, ⟨?_, h.next⟩⟩
  · rw [h.schema]
    obtain ⟨⟨id, strict, nesting, scalars, subsections⟩, next⟩ := s
    rw [Schema.declare, Schema.declare, Schema.scalar?_renumber]
    cases Schema.scalar? _ name.text with
    | some v => rfl
    | none => simp [Schema.renumber_mk, Var.renumber]
  · rw [h.schema]
    exact Schema.declare_renumber f s.schema name level

/-- A subsection that is declared in both is the same up to identities, and so are the scopes in
which and for which it is declared. -/
theorem Renumbered.declareSubsection (h : s.Renumbered f s') (name : SlotName) :
    let declared := s.declareSubsection name
    let declared' := s'.declareSubsection name
    declared'.1.1 = declared.1.1.renumber f ∧ declared.2.Renumbered f declared'.2 ∧
      Renumbered f ⟨declared.1.2, declared.2.next⟩ ⟨declared'.1.2, declared'.2.next⟩ := by
  obtain ⟨⟨id, strict, nesting, scalars, subsections⟩, next⟩ := s
  obtain ⟨schema', next'⟩ := s'
  obtain ⟨hschema, hnext⟩ := h
  obtain rfl : schema' = _ := hschema
  simp only [Scope.declareSubsection, Schema.renumber_mk, List.find?_map]
  have hname : ((fun sub : Tag × Schema => decide (sub.1.name = name)) ∘
      fun sub : Tag × Schema => (sub.1.renumber f, sub.2.renumber f)) =
        fun sub => decide (sub.1.name = name) := rfl
  rw [hname]
  cases subsections.find? fun sub : Tag × Schema => decide (sub.1.name = name) with
  | some sub => exact ⟨rfl, ⟨(Schema.renumber_mk ..).symm, hnext⟩, ⟨rfl, hnext⟩⟩
  | none =>
      have hlater : ∀ k, f ⟨next + 1 + k⟩ = ⟨next' + 1 + k⟩ := fun k => by
        rw [Nat.add_right_comm, Nat.add_assoc, hnext, Nat.add_right_comm, Nat.add_assoc]
      have hfirst : f ⟨next⟩ = ⟨next'⟩ := hnext 0
      refine ⟨?_, ⟨?_, hlater⟩, ⟨?_, hlater⟩⟩
      · simp [Tag.renumber, hfirst]
      · simp [Schema.renumber_mk, Tag.renumber, Nesting.renumber, hfirst]
      · simp [Schema.renumber_mk, Nesting.renumber, hfirst]

/-- Replacing the schema of the rows in both leaves them the same up to identities. -/
theorem Renumbered.setChild {inner inner' : Scope} (h : s.Renumbered f s')
    (hinner : inner.Renumbered f inner') (t : Tag) :
    Renumbered f ⟨s.schema.setChild t inner.schema, inner.next⟩
      ⟨s'.schema.setChild (t.renumber f) inner'.schema, inner'.next⟩ where
  schema := by rw [h.schema, hinner.schema, Schema.setChild_renumber]
  next := hinner.next

end Scope

/-! ### Operations side by side -/

namespace Declaring

variable {α β : Type} {f : SchemaId → SchemaId}

/-- **Operations that end alike**: in scopes that differ in their identities both succeed, with
answers that are related, or both fail with the same error, and leave such scopes. -/
def Parallel (f : SchemaId → SchemaId) (R : α → α → Prop) (act act' : Declaring α) : Prop :=
  ∀ s s' : Scope, s.Renumbered f s' →
    (∃ a a' t t', act s = .ok a t ∧ act' s' = .ok a' t' ∧ t.Renumbered f t' ∧ R a a') ∨
    ∃ e t t', act s = .error e t ∧ act' s' = .error e t' ∧ t.Renumbered f t'

namespace Parallel

variable {R : α → α → Prop} {act act' : Declaring α}

/-- Answers without a declaration. -/
theorem pure {a a' : α} (h : R a a') : Parallel f R (Pure.pure a) (Pure.pure a') :=
  fun s s' hs => .inl ⟨a, a', s, s', rfl, rfl, hs, h⟩

/-- The same failure. -/
theorem throw (e : Abort) :
    Parallel f R (MonadExcept.throw e : Declaring α) (MonadExcept.throw e) :=
  fun s s' hs => .inr ⟨e, s, s', rfl, rfl, hs⟩

/-- One operation after another. -/
theorem bind {S : β → β → Prop} {k k' : α → Declaring β} (h : Parallel f R act act')
    (hk : ∀ a a', R a a' → Parallel f S (k a) (k' a')) :
    Parallel f S (act >>= k) (act' >>= k') := by
  intro s s' hs
  obtain ⟨a, a', t, t', ha, ha', ht, haa'⟩ | ⟨e, t, t', he, he', ht⟩ := h s s' hs
  · rw [bind_of_ok ha, bind_of_ok ha']
    exact hk a a' haa' t t' ht
  · exact .inr ⟨e, t, t', bind_of_error he, bind_of_error he', ht⟩

/-- Describing failures changes nothing else. -/
theorem within (step : Step) (h : Parallel f R act act') :
    Parallel f R (act.within step) (act'.within step) := by
  intro s s' hs
  simp only [Declaring.within]
  obtain ⟨a, a', t, t', ha, ha', ht, haa'⟩ | ⟨e, t, t', he, he', ht⟩ := h s s' hs
  · rw [ha, ha']
    exact .inl ⟨a, a', t, t', rfl, rfl, ht, haa'⟩
  · rw [he, he']
    exact .inr ⟨e.within step, t, t', rfl, rfl, ht⟩

/-- An error of structure is an error in both. -/
theorem orStructure (r : Except StructureError α) :
    Parallel f Eq (Declaring.orStructure r) (Declaring.orStructure r) := by
  cases r with
  | ok a => exact .pure rfl
  | error e => exact .throw _

/-- An error of trust is an error in both. -/
theorem orTrust (r : Except TrustError α) :
    Parallel f Eq (Declaring.orTrust r) (Declaring.orTrust r) := by
  cases r with
  | ok a => exact .pure rfl
  | error e => exact .throw _

/-- An overflow is one in both. -/
theorem orOverflow (r : Except Overflow α) :
    Parallel f Eq (Declaring.orOverflow r) (Declaring.orOverflow r) := by
  cases r with
  | ok a => exact .pure rfl
  | error e => exact .throw _

/-- A variable is declared in both. -/
theorem attach (v : Var) (extra : TrustLevel) :
    Parallel f (fun w w' => w' = w.renumber f) (Declaring.attach v extra)
      (Declaring.attach v extra) := by
  intro s s' hs
  obtain ⟨hvar, hscope⟩ := hs.declare v.name (v.level.join extra)
  exact .inl ⟨_, _, _, _, rfl, rfl, hscope, hvar⟩

/-- Working on the schemas of the rows. -/
theorem inSubsection (h : Parallel f R act act') (name : SlotName) :
    Parallel f (fun a a' => a'.1 = a.1.renumber f ∧ R a.2 a'.2)
      (Declaring.inSubsection name act) (Declaring.inSubsection name act') := by
  intro s s' hs
  obtain ⟨htag, houter, hrows⟩ := hs.declareSubsection name
  simp only [Declaring.inSubsection, htag]
  obtain ⟨a, a', t, t', ha, ha', ht, haa'⟩ | ⟨e, t, t', he, he', ht⟩ := h _ _ hrows
  · rw [ha, ha']
    exact .inl ⟨_, _, _, _, rfl, rfl, houter.setChild ht _, rfl, haa'⟩
  · rw [he, he']
    exact .inr ⟨_, _, _, rfl, rfl, houter.setChild ht _⟩

end Parallel

end Declaring

/-! ### Pieces side by side -/

/-- Steps of two runs: variables and subsections differ in identities, and programs are related
by `P`. -/
inductive Chunk.Corresponds (f : SchemaId → SchemaId) (P : Program → Program → Prop) :
    Chunk → Chunk → Prop
  | scalar {v : Var} {reflow : Option Reflow} :
      Corresponds f P (.scalar v reflow) (.scalar (v.renumber f) reflow)
  | subsection {t : Tag} {program program' : Program} (h : P program program') :
      Corresponds f P (.subsection t program) (.subsection (t.renumber f) program')
  | switch {cases cases' : List (Condition × Option Program)} {default default' : Option Program}
      (hcases : List.Forall₂ (fun a b => a.1 = b.1 ∧ Option.Rel P a.2 b.2) cases cases')
      (hdefault : Option.Rel P default default') :
      Corresponds f P (.switch cases default) (.switch cases' default')

/-- Pieces of two runs. Only a layout that is not compact has fresh lines. -/
inductive Piece.Corresponds (o : LayoutOptions) (f : SchemaId → SchemaId)
    (P : Program → Program → Prop) : Piece → Piece → Prop
  | text {text : String} : Corresponds o f P (.text text) (.text text)
  | freshLine {depth : ℕ} (hlayout : o.isCompact = false) :
      Corresponds o f P (.freshLine depth) (.freshLine depth)
  | step {chunk chunk' : Chunk} (h : chunk.Corresponds f P chunk') :
      Corresponds o f P (.step chunk) (.step chunk')

/-- **What is asked of `P`**: programs are related if they are assembled from pieces that
correspond, the second one with its text merged or in pieces. -/
def Program.Assembles (o : LayoutOptions) (separate : Bool) (f : SchemaId → SchemaId)
    (P : Program → Program → Prop) : Prop :=
  ∀ found found' : List Piece, List.Forall₂ (Piece.Corresponds o f P) found found' →
    P (assemble o found) (assemble (o.setSeparate separate) found')

/-! ### Programs that are the same up to identities -/

/-- Programs that are the same up to identities. -/
def Program.IsRenumbered (f : SchemaId → SchemaId) (program program' : Program) : Prop :=
  program' = renumber f program

namespace Program

variable {f : SchemaId → SchemaId}

/-- Outputs are the same up to identities. -/
theorem IsRenumbered.output {output output' : Option Program}
    (h : Option.Rel (IsRenumbered f) output output') : output' = renumberOutput f output := by
  cases h with
  | none => rfl
  | some hprogram => exact congrArg some hprogram

/-- Cases are the same up to identities. -/
theorem IsRenumbered.cases {cases cases' : List (Condition × Option Program)}
    (h : List.Forall₂ (fun a b => a.1 = b.1 ∧ Option.Rel (IsRenumbered f) a.2 b.2) cases cases') :
    cases' = renumberCases f cases := by
  induction h with
  | nil => rfl
  | @cons a b rest rest' hfirst _ ih =>
      obtain ⟨condition, output⟩ := a
      obtain ⟨condition', output'⟩ := b
      obtain ⟨hcondition, houtput⟩ := hfirst
      obtain rfl : condition = condition' := hcondition
      have hsame : output' = renumberOutput f output := IsRenumbered.output houtput
      rw [renumberCases, ih, hsame]

/-- Steps are the same up to identities. -/
theorem IsRenumbered.chunk {chunk chunk' : Chunk}
    (h : chunk.Corresponds f (IsRenumbered f) chunk') : chunk' = renumberChunk f chunk := by
  cases h with
  | scalar => rfl
  | subsection hprogram => exact congrArg (Chunk.subsection _) hprogram
  | switch hcases hdefault =>
      rw [renumberChunk, IsRenumbered.cases hcases, IsRenumbered.output hdefault]

end Program

section

variable {o : LayoutOptions} {separate : Bool} {f : SchemaId → SchemaId}
  {P : Program → Program → Prop}

/-- The pieces in front of an element correspond. -/
theorem Element.startPieces_corresponds (separate : Bool) (depth : ℕ) (e : Element) :
    List.Forall₂ (Piece.Corresponds o f P) (e.startPieces o depth)
      (e.startPieces (o.setSeparate separate) depth) := by
  have hsame : e.startPieces (o.setSeparate separate) depth = e.startPieces o depth := rfl
  rw [hsame, startPieces]
  split
  · rename_i hblock
    rw [isBlock, Bool.and_eq_true, Bool.not_eq_true'] at hblock
    exact .cons (.freshLine hblock.2) .nil
  · exact .nil

/-- The pieces that begin a line within an element correspond. -/
theorem Element.breakPieces_corresponds (separate : Bool) (depth : ℕ) (e : Element) :
    List.Forall₂ (Piece.Corresponds o f P) (e.breakPieces o depth)
      (e.breakPieces (o.setSeparate separate) depth) := by
  have hsame : e.breakPieces (o.setSeparate separate) depth = e.breakPieces o depth := rfl
  rw [hsame, breakPieces]
  split
  · exact .cons .text .nil
  · exact .nil

/-- The contents of an element are entered at the same depth. -/
theorem Element.enter_parallel (depth : ℕ) (e : Element) :
    Declaring.Parallel f Eq (e.enter o depth) (e.enter (o.setSeparate separate) depth) := by
  have hsame : e.enter (o.setSeparate separate) depth = e.enter o depth := rfl
  rw [hsame, enter]
  split
  · exact .orOverflow _
  · exact .pure rfl

variable [UrlReader]

/-- A value yields pieces that correspond. -/
theorem Value.piece_parallel (level : TrustLevel) (value : Value) :
    Declaring.Parallel f (Piece.Corresponds o f P) (value.piece level) (value.piece level) := by
  cases value with
  | concrete s =>
      rw [piece]
      refine (Declaring.Parallel.orTrust _).bind fun text _ hsame => ?_
      subst hsame
      exact .pure .text
  | deferred v =>
      rw [piece]
      refine (Declaring.Parallel.attach v level).bind fun w w' hw => ?_
      subst hw
      exact .pure (.step .scalar)

/-- A text yields pieces that correspond. -/
theorem Value.textPiece_parallel (depth : ℕ) (width : Option ℕ) (value : Value) :
    Declaring.Parallel f (Piece.Corresponds o f P) (value.textPiece o depth width)
      (value.textPiece (o.setSeparate separate) depth width) := by
  cases value with
  | concrete s =>
      rw [textPiece, textPiece]
      refine (Declaring.Parallel.orTrust _).bind fun checked _ hsame => ?_
      subst hsame
      refine (Declaring.Parallel.orOverflow _).bind fun text _ hsame => ?_
      subst hsame
      exact .pure .text
  | deferred v =>
      rw [textPiece, textPiece]
      refine (Declaring.Parallel.attach v .textSafe).bind fun w w' hw => ?_
      subst hw
      exact .pure (.step .scalar)

/-- An attribute yields pieces that correspond. -/
theorem Attribute.pieces_parallel (a : Attribute) :
    Declaring.Parallel f (List.Forall₂ (Piece.Corresponds o f P)) a.pieces a.pieces := by
  have hname : Declaring.Parallel f Eq
      (discard <| Declaring.orStructure <| SlotName.checked .attribute a.name)
      (discard <| Declaring.orStructure <| SlotName.checked .attribute a.name) := by
    cases SlotName.checked .attribute a.name with
    | ok slot => exact .pure rfl
    | error e => exact .throw _
  rw [pieces]
  refine hname.bind fun _ _ _ => ?_
  refine (a.value.piece_parallel (o := o) (P := P) a.required).bind fun piece piece' hpiece => ?_
  exact .pure (.cons .text (.cons hpiece (.cons .text .nil)))

/-- The attributes of an element yield pieces that correspond. -/
theorem Element.attributePieces_parallel (e : Element) : ∀ attributes : List Attribute,
    Declaring.Parallel f (List.Forall₂ (Piece.Corresponds o f P)) (e.attributePieces attributes)
      (e.attributePieces attributes)
  | [] => .pure .nil
  | a :: rest => by
      rw [attributePieces]
      refine ((a.pieces_parallel (o := o) (P := P)).within _).bind fun first first' hfirst => ?_
      refine (e.attributePieces_parallel rest).bind fun later later' hlater => ?_
      exact .pure (List.rel_append hfirst hlater)

/-- An opening tag yields pieces that correspond. -/
theorem Element.openingPieces_parallel (e : Element) :
    Declaring.Parallel f (List.Forall₂ (Piece.Corresponds o f P)) e.openingPieces
      e.openingPieces := by
  rw [openingPieces]
  refine (e.attributePieces_parallel (o := o) (P := P) _).bind fun found found' hfound => ?_
  exact .pure (.cons .text (List.rel_append hfound (.cons .text .nil)))

/-! ### Trees side by side -/

namespace Node

open Declaring

mutual

/-- **A tree compiles alike** against scopes that differ in their identities, with its text merged
or in pieces. -/
theorem pieces_parallel (hP : Program.Assembles o separate f P) (depth : ℕ) : ∀ node : Node,
    Parallel f (List.Forall₂ (Piece.Corresponds o f P)) (node.pieces o depth)
      (node.pieces (o.setSeparate separate) depth)
  | .element e contents => by
      rw [pieces_element, pieces_element]
      refine (Parallel.orStructure _).bind fun _ _ _ => ?_
      refine (e.openingPieces_parallel (o := o) (P := P)).bind fun opening opening' hopening => ?_
      have hstart := List.rel_append (e.startPieces_corresponds separate depth) hopening
      cases e.isClosed with
      | true => exact .pure hstart
      | false =>
          refine (e.enter_parallel depth).bind fun inner _ hsame => ?_
          subst hsame
          refine (childPieces_parallel hP inner _ 1 contents).bind fun body body' hbody => ?_
          have hlines := List.rel_append
            (List.rel_append hstart (e.breakPieces_corresponds separate inner)) hbody
          exact .pure (List.rel_append (List.rel_append hlines
            (e.breakPieces_corresponds separate depth)) (.cons .text .nil))
  | .text value width => by
      rw [pieces, pieces]
      refine (value.textPiece_parallel (P := P) depth width).bind fun piece piece' hpiece => ?_
      exact .pure (.cons hpiece .nil)
  | .raw value => by
      rw [pieces, pieces]
      refine (value.piece_parallel (o := o) (P := P) .htmlSafe).bind fun piece piece' hpiece => ?_
      exact .pure (.cons hpiece .nil)
  | .multi (some error) contents => by
      rw [pieces, pieces]
      exact .throw _
  | .multi none contents => by
      rw [pieces, pieces]
      exact childPieces_parallel hP depth .multi 1 contents
  | .subsection name prototype => by
      rw [pieces, pieces]
      refine (Parallel.orStructure _).bind fun slot _ hsame => ?_
      subst hsame
      have hprototype := (pieces_parallel hP depth prototype).within (.subsection name)
      refine (hprototype.inSubsection slot).bind fun (t, found) (t', found') hfound => ?_
      obtain ⟨htag, hfound⟩ := hfound
      obtain rfl : t' = t.renumber f := htag
      exact .pure (.cons (.step (.subsection (hP _ _ hfound))) .nil)
  | .switch cases default => by
      rw [pieces, pieces]
      refine (casePrograms_parallel hP depth 1 _ cases).bind fun programs programs' hcases => ?_
      refine (defaultProgram_parallel hP depth default).bind
        fun otherwise otherwise' hdefault => ?_
      exact .pure (.cons (.step (.switch hcases hdefault)) .nil)

/-- Contents compile alike. -/
theorem childPieces_parallel (hP : Program.Assembles o separate f P) (depth : ℕ)
    (parent : Parent) (number : ℕ) : ∀ contents : List Node,
      Parallel f (List.Forall₂ (Piece.Corresponds o f P))
        (childPieces o depth parent number contents)
        (childPieces (o.setSeparate separate) depth parent number contents)
  | [] => .pure .nil
  | child :: rest => by
      rw [childPieces, childPieces]
      refine ((pieces_parallel hP depth child).within (.child number parent)).bind
        fun first first' hfirst => ?_
      refine (childPieces_parallel hP depth parent (number + 1) rest).bind
        fun later later' hlater => ?_
      exact .pure (List.rel_append hfirst hlater)

/-- Cases compile alike. -/
theorem casePrograms_parallel (hP : Program.Assembles o separate f P) (depth number count : ℕ) :
    ∀ cases : List (Condition × Option Node),
      Parallel f (List.Forall₂ fun a b => a.1 = b.1 ∧ Option.Rel P a.2 b.2)
        (casePrograms o depth number count cases)
        (casePrograms (o.setSeparate separate) depth number count cases)
  | [] => .pure .nil
  | (condition, none) :: rest => by
      rw [casePrograms, casePrograms]
      refine (casePrograms_parallel hP depth (number + 1) count rest).bind
        fun programs programs' hrest => ?_
      exact .pure (.cons ⟨rfl, .none⟩ hrest)
  | (condition, some output) :: rest => by
      rw [casePrograms, casePrograms]
      refine ((pieces_parallel hP depth output).within (.case number count)).bind
        fun found found' hfound => ?_
      refine (casePrograms_parallel hP depth (number + 1) count rest).bind
        fun programs programs' hrest => ?_
      exact .pure (.cons ⟨rfl, .some (hP _ _ hfound)⟩ hrest)

/-- The default of a switch compiles alike. -/
theorem defaultProgram_parallel (hP : Program.Assembles o separate f P) (depth : ℕ) :
    ∀ default : Option Node,
      Parallel f (Option.Rel P) (defaultProgram o depth default)
        (defaultProgram (o.setSeparate separate) depth default)
  | none => .pure .none
  | some output => by
      rw [defaultProgram, defaultProgram]
      refine ((pieces_parallel hP depth output).within .defaultCase).bind
        fun found found' hfound => ?_
      exact .pure (.some (hP _ _ hfound))

end

/-- **Templates of a tree** that is compiled twice have schemas that differ in identities and
programs that are related; if there is none, compiling has failed with the same error. -/
theorem compile_parallel (hP : Program.Assembles o separate f P) (node : Node)
    {scope scope' : Scope} (hscope : scope.Renumbered f scope') :
    (∃ e next next', node.compile o scope = (.error e, next) ∧
      node.compile (o.setSeparate separate) scope' = (.error e, next')) ∨
    ∃ t t' next next', node.compile o scope = (.ok t, next) ∧
      node.compile (o.setSeparate separate) scope' = (.ok t', next') ∧
      t'.schema = t.schema.renumber f ∧ P t.program t'.program := by
  have hdepth : (o.setSeparate separate).rootDepth = o.rootDepth := rfl
  rw [compile, compile, hdepth]
  obtain ⟨found, found', final, final', hfound, hfound', hfinal, hpieces⟩ |
    ⟨e, final, final', he, he', -⟩ := pieces_parallel hP o.rootDepth node scope scope' hscope
  · rw [hfound, hfound']
    exact .inr ⟨_, _, _, _, rfl, rfl, hfinal.schema, hP _ _ hpieces⟩
  · rw [he, he']
    exact .inl ⟨e, _, _, rfl, rfl⟩

end Node

end

end TrustedHtml
