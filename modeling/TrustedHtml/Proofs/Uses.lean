import TrustedHtml.Proofs.TrustSoundness

/-!
# What Compiling Does, Told by the Tree

What compiling a tree checks and what it declares depends neither on the layout nor on the
schema that is declared on. The checks are made in the order of the tree, and `Node.verify` is
their verdict: the first failure with the steps that lead to it, or none. The declarations are
made in the same order, and `Node.uses` lists them; `Scope.useAll` makes them. What does depend
on the layout is only whether counters suffice, `Node.Fits`.

`Declaring.Performs` is the contract that ties an operation to the three: it overflows, and then
something did not fit; it fails with the verdict; or it succeeds, and then everything fits, the
verdict is good, and the schema has what the uses declare. As with `Declaring.Ensures` there is
one rule for every way in which operations are made.

## Main definitions

* `Node.verify`, `Node.uses`, `Node.Fits`: checks, declarations and counters of a tree.
* `Declaring.Performs`: an operation does what they tell.

## Main results

* `Node.pieces_performs`: **compiling a tree does what the tree tells.**
* `Node.compile_cases`: what a tree is compiled to.
-/

namespace TrustedHtml

/-- A name that is accepted is a name. -/
theorem SlotName.ofString?_of_checked {kind : NameKind} {name : String} {slot : SlotName}
    (h : checked kind name = .ok slot) : ofString? name = some slot := by
  rw [checked] at h
  split at h
  · rename_i plain hplain
    split at h
    · cases h
      exact hplain
    · cases h
  · cases h

/-! ### Declarations -/

/-- A declaration: of a variable at a level, or of a subsection with those for its rows. -/
inductive Use where
  | scalar (name : SlotName) (level : TrustLevel)
  | subsection (name : SlotName) (uses : List Use)

namespace Scope

/-- The schema of the rows of a subsection, which is declared unless it is known. -/
def inside (s : Scope) (name : SlotName) : Scope :=
  ⟨(s.declareSubsection name).1.2, (s.declareSubsection name).2.next⟩

mutual

/-- Make a declaration. -/
def use (s : Scope) : Use → Scope
  | .scalar name level => { s with schema := (s.schema.declare name level).2 }
  | .subsection name uses =>
      let declared := s.declareSubsection name
      let inner := useAll (s.inside name) uses
      ⟨declared.2.schema.setChild declared.1.1 inner.schema, inner.next⟩

/-- Make declarations in order. -/
def useAll (s : Scope) : List Use → Scope
  | [] => s
  | u :: rest => (s.use u).useAll rest

end

/-- Declarations one after the other. -/
theorem useAll_append (s : Scope) (uses later : List Use) :
    s.useAll (uses ++ later) = (s.useAll uses).useAll later := by
  induction uses generalizing s with
  | nil => rfl
  | cons u rest ih => exact ih (s.use u)

end Scope

/-! ### Verdicts -/

/-- The verdict of checks: the first failure, if there is one. -/
abbrev Verdict := Except Abort Unit

namespace Verdict

/-- The verdict of a check of structure. -/
def ofStructure {α : Type} : Except StructureError α → Verdict
  | .ok _ => .ok ()
  | .error e => .error (.ofCause (.structural e))

/-- The verdict of a check of trust. -/
def ofTrust {α : Type} : Except TrustError α → Verdict
  | .ok _ => .ok ()
  | .error e => .error (.ofCause (.trust e))

/-- Two verdicts are good together if each of them is. -/
theorem seq_eq_ok {v w : Verdict} : (do v; w) = .ok () ↔ v = .ok () ∧ w = .ok () := by
  rcases v with e | ⟨⟨⟩⟩
  · exact ⟨nofun, nofun⟩
  · exact ⟨fun h => ⟨rfl, h⟩, And.right⟩

/-- Where a verdict arises makes no difference to whether it is good. -/
theorem within_eq_ok {v : Verdict} {step : Step} : Except.within step v = .ok () ↔ v = .ok () := by
  rcases v with e | ⟨⟨⟩⟩
  · exact ⟨nofun, nofun⟩
  · exact ⟨fun _ => rfl, fun _ => rfl⟩

/-- A check of structure is good if it succeeds. -/
theorem ofStructure_eq_ok {α : Type} {r : Except StructureError α} :
    ofStructure r = .ok () ↔ ∃ a, r = .ok a := by
  cases r with
  | ok a => exact ⟨fun _ => ⟨a, rfl⟩, fun _ => rfl⟩
  | error e => exact ⟨nofun, nofun⟩

/-- A check of trust is good if it succeeds. -/
theorem ofTrust_eq_ok {α : Type} {r : Except TrustError α} :
    ofTrust r = .ok () ↔ ∃ a, r = .ok a := by
  cases r with
  | ok a => exact ⟨fun _ => ⟨a, rfl⟩, fun _ => rfl⟩
  | error e => exact ⟨nofun, nofun⟩

end Verdict

/-! ### Operations that do what is told -/

namespace Declaring

variable {α β : Type}

/-- **An operation does what is told**: it overflows, and something does not fit; or it fails,
with the verdict; or it succeeds, everything fits, the verdict is good, and the uses have been
declared. -/
def Performs (act : Declaring α) (fits : Prop) (verdict : Verdict) (uses : List Use) : Prop :=
  ∀ s : Scope,
    (¬ fits ∧ ∃ o t, act s = .error (.overflow o) t) ∨
    (∃ e t, verdict = .error e ∧ act s = .error e t) ∨
    (fits ∧ verdict = .ok () ∧ ∃ a, act s = .ok a (s.useAll uses))

variable {act : Declaring α} {fits fits' : Prop} {verdict verdict' : Verdict}
  {uses uses' : List Use}

/-- An answer without a declaration. -/
theorem Performs.pure (a : α) : Performs (Pure.pure a) True (.ok ()) [] :=
  fun _ => .inr (.inr ⟨trivial, rfl, a, rfl⟩)

/-- A failure. -/
theorem Performs.throw (e : Abort) :
    Performs (MonadExcept.throw e : Declaring α) True (.error e) uses :=
  fun s => .inr (.inl ⟨e, s, rfl, rfl⟩)

/-- One operation after another. About the second one only those answers matter that the first
one gives. -/
theorem Performs.bind {k : α → Declaring β} (h : act.Performs fits verdict uses)
    (hk : ∀ {s t a}, act s = .ok a t → (k a).Performs fits' verdict' uses') :
    (act >>= k).Performs (fits ∧ fits') (do verdict; verdict') (uses ++ uses') := by
  intro s
  simp only [Bind.bind, EStateM.bind]
  obtain ⟨hfits, o, t, hact⟩ | ⟨e, t, rfl, hact⟩ | ⟨hfits, rfl, a, hact⟩ := h s
  · rw [hact]
    exact .inl ⟨fun hboth => hfits hboth.1, o, t, rfl⟩
  · rw [hact]
    exact .inr (.inl ⟨e, t, rfl, rfl⟩)
  · rw [hact]
    obtain ⟨hfits', hoverflow⟩ | hfails | ⟨hfits', hverdict, b, hb⟩ := hk hact (s.useAll uses)
    · exact .inl ⟨fun hboth => hfits' hboth.2, hoverflow⟩
    · exact .inr (.inl hfails)
    · refine .inr (.inr ⟨⟨hfits, hfits'⟩, hverdict, b, ?_⟩)
      rw [Scope.useAll_append]
      exact hb

/-- The same, told in other words. -/
theorem Performs.congr (h : act.Performs fits verdict uses) (hfits : fits ↔ fits')
    (hverdict : verdict = verdict') (huses : uses = uses') :
    act.Performs fits' verdict' uses' := by
  subst hverdict huses
  intro s
  rw [← hfits]
  exact h s

/-- An operation after which only an answer is given. -/
theorem Performs.map (h : act.Performs fits verdict uses) (g : α → β) :
    (act >>= fun a => Pure.pure (g a)).Performs fits verdict uses := by
  refine (h.bind fun _ => .pure _).congr (and_iff_left trivial) ?_ (List.append_nil _)
  rcases verdict with e | ⟨⟨⟩⟩ <;> rfl

/-- A check in front of an operation. -/
theorem Performs.after {k : α → Declaring β} (h : act.Performs True verdict [])
    (hk : ∀ {s t a}, act s = .ok a t → (k a).Performs fits verdict' uses) :
    (act >>= k).Performs fits (do verdict; verdict') uses :=
  (h.bind hk).congr (and_iff_right trivial) rfl rfl

/-- Describing failures changes nothing else. -/
theorem Performs.within (step : Step) (h : act.Performs fits verdict uses) :
    (act.within step).Performs fits (Except.within step verdict) uses := by
  intro s
  simp only [Declaring.within]
  obtain ⟨hfits, o, t, hact⟩ | ⟨e, t, rfl, hact⟩ | ⟨hfits, rfl, a, hact⟩ := h s
  · rw [hact]
    exact .inl ⟨hfits, o, t, rfl⟩
  · rw [hact]
    exact .inr (.inl ⟨e.within step, t, rfl, rfl⟩)
  · rw [hact]
    exact .inr (.inr ⟨hfits, rfl, a, rfl⟩)

/-- Working on the schema of the rows of a subsection. -/
theorem Performs.inSubsection (h : act.Performs fits verdict uses) (name : SlotName) :
    (Declaring.inSubsection name act).Performs fits verdict [.subsection name uses] := by
  intro s
  simp only [Declaring.inSubsection]
  obtain ⟨hfits, o, t, hact⟩ | ⟨e, t, rfl, hact⟩ | ⟨hfits, rfl, a, hact⟩ :=
    h ⟨(s.declareSubsection name).1.2, (s.declareSubsection name).2.next⟩
  · rw [hact]
    exact .inl ⟨hfits, o, _, rfl⟩
  · rw [hact]
    exact .inr (.inl ⟨e, _, rfl, rfl⟩)
  · rw [hact]
    exact .inr (.inr ⟨hfits, rfl, _, rfl⟩)

/-- A check of structure. -/
theorem orStructure_performs (r : Except StructureError α) :
    (orStructure r).Performs True (.ofStructure r) [] := by
  cases r with
  | ok a => exact .pure a
  | error e => exact .throw _

/-- A check of structure that is passed gives what was checked. -/
theorem eq_ok_of_orStructure {r : Except StructureError α} {a : α} {s t : Scope}
    (h : orStructure r s = .ok a t) : r = .ok a := by
  cases r with
  | ok b =>
      cases h
      rfl
  | error e => cases h

/-- A check of trust. -/
theorem orTrust_performs (r : Except TrustError α) :
    (orTrust r).Performs True (.ofTrust r) [] := by
  cases r with
  | ok a => exact .pure a
  | error e => exact .throw _

/-- A counter. -/
theorem orOverflow_performs (r : Except Overflow α) :
    (orOverflow r).Performs (∃ a, r = .ok a) (.ok ()) [] := by
  cases r with
  | ok a => exact fun _ => .inr (.inr ⟨⟨a, rfl⟩, rfl, a, rfl⟩)
  | error o => exact fun s => .inl ⟨nofun, o, s, rfl⟩

/-- Attaching a variable. -/
theorem attach_performs (v : Var) (extra : TrustLevel) :
    (attach v extra).Performs True (.ok ()) [.scalar v.name (v.level ⊔ extra)] :=
  fun _ => .inr (.inr ⟨trivial, rfl, _, rfl⟩)

end Declaring

/-! ### Entering elements -/

namespace Element

open Declaring

/-- Entering an element takes a counter if it is laid out as a block. -/
theorem enter_performs (o : LayoutOptions) (depth : ℕ) (e : Element) :
    (e.enter o depth).Performs (e.isBlock o = true → depth + 1 < Counter.bound) (.ok ()) [] := by
  rw [enter]
  cases e.isBlock o with
  | false => exact (Performs.pure depth).congr ⟨fun _ => nofun, fun _ => trivial⟩ rfl rfl
  | true =>
      refine (orOverflow_performs (Counter.add depth 1)).congr ⟨?_, fun h => ?_⟩ rfl rfl
      · rintro ⟨inner, hinner⟩ -
        obtain ⟨rfl, hlt⟩ := Counter.add_eq_ok_iff.mp hinner
        exact hlt
      · exact ⟨_, Counter.add_eq_ok_iff.mpr ⟨rfl, h rfl⟩⟩

/-- What is entered is the depth of the contents. -/
theorem eq_innerDepth_of_enter {o : LayoutOptions} {depth inner : ℕ} {e : Element} {s t : Scope}
    (h : e.enter o depth s = .ok inner t) : inner = e.innerDepth o depth := by
  rw [enter] at h
  rw [innerDepth]
  by_cases hblock : e.isBlock o = true
  · rw [if_pos hblock] at h ⊢
    cases hinner : Counter.add depth 1 with
    | error e =>
        rw [hinner] at h
        cases h
    | ok sum =>
        rw [hinner] at h
        cases h
        exact (Counter.add_eq_ok_iff.mp hinner).1.symm
  · rw [if_neg hblock] at h ⊢
    cases h
    rfl

end Element

/-! ### What a tree tells -/

section

variable [UrlReader]

namespace Value

/-- The verdict about a value at a place that requires `level`. -/
def verify (level : TrustLevel) : Value → Verdict
  | .concrete s => .ofTrust (s.check level)
  | .deferred _ => .ok ()

/-- What a value declares at a place that requires `level`. -/
def uses (level : TrustLevel) : Value → List Use
  | .concrete _ => []
  | .deferred v => [.scalar v.name (v.level ⊔ level)]

/-- A text that is known can be reflowed. -/
def Fits (r : Reflow) : Value → Prop
  | .concrete s =>
      ∀ checked, s.check .textSafe = .ok checked → ∃ filled, r.apply checked = .ok filled
  | .deferred _ => True

end Value

/-- The verdict about an attribute. -/
def Attribute.verify (a : Attribute) : Verdict := do
  Verdict.ofStructure (SlotName.checked .attribute a.name)
  a.value.verify a.required

namespace Element

/-- The verdict about attributes. -/
def verifyAttributes (e : Element) : List Attribute → Verdict
  | [] => .ok ()
  | a :: rest => do
    Except.within (.attribute a.name e.name) a.verify
    e.verifyAttributes rest

/-- The verdict about an opening tag. -/
def verify (e : Element) : Verdict :=
  e.verifyAttributes (Attribute.lastOfEachName e.attributes)

/-- What an opening tag declares. -/
def uses (e : Element) : List Use :=
  (Attribute.lastOfEachName e.attributes).flatMap fun a => a.value.uses a.required

end Element

namespace Node

mutual

/-- **The verdict about a tree**: the first failure, in the order of the tree. -/
def verify : Node → Verdict
  | .element e contents => do
    Verdict.ofStructure (e.check contents)
    e.verify
    if e.isClosed then .ok () else verifyChildren (.element e.name) 1 contents
  | .text value _ => value.verify .textSafe
  | .raw value => value.verify .htmlSafe
  | .multi (some e) _ => .error (.ofCause (.structural e))
  | .multi none contents => verifyChildren .multi 1 contents
  | .subsection name prototype => do
    Verdict.ofStructure (SlotName.checked .subsection name)
    Except.within (.subsection name) (verify prototype)
  | .switch cases default => do
    verifyCases 1 cases.length cases
    verifyDefault default

/-- The verdict about children, the first of which has the given number. -/
def verifyChildren (parent : Parent) (number : ℕ) : List Node → Verdict
  | [] => .ok ()
  | child :: rest => do
    Except.within (.child number parent) (verify child)
    verifyChildren parent (number + 1) rest

/-- The verdict about cases, the first of which has the given number. -/
def verifyCases (number count : ℕ) : List (Condition × Option Node) → Verdict
  | [] => .ok ()
  | (_, none) :: rest => verifyCases (number + 1) count rest
  | (_, some output) :: rest => do
    Except.within (.case number count) (verify output)
    verifyCases (number + 1) count rest

/-- The verdict about the default of a switch. -/
def verifyDefault : Option Node → Verdict
  | none => .ok ()
  | some output => Except.within .defaultCase (verify output)

end

mutual

/-- **What a tree declares**, in the order of the tree. -/
def uses : Node → List Use
  | .element e contents => e.uses ++ if e.isClosed then [] else childUses contents
  | .text value _ => value.uses .textSafe
  | .raw value => value.uses .htmlSafe
  | .multi _ contents => childUses contents
  | .subsection name prototype =>
      match SlotName.ofString? name with
      | some slot => [.subsection slot (uses prototype)]
      | none => []
  | .switch cases default => caseUses cases ++ outputUses default

/-- What children declare. -/
def childUses : List Node → List Use
  | [] => []
  | child :: rest => uses child ++ childUses rest

/-- What cases declare. -/
def caseUses : List (Condition × Option Node) → List Use
  | [] => []
  | (_, output) :: rest => outputUses output ++ caseUses rest

/-- What an alternative declares. -/
def outputUses : Option Node → List Use
  | none => []
  | some output => uses output

end

mutual

/-- Depths and the columns of known texts are counters. -/
def Fits (o : LayoutOptions) (depth : ℕ) : Node → Prop
  | .element e contents =>
      e.isClosed = false → (e.isBlock o = true → depth + 1 < Counter.bound) ∧
        ChildrenFit o (e.innerDepth o depth) contents
  | .text value width => value.Fits (o.reflow depth width)
  | .raw _ => True
  | .multi (some _) _ => True
  | .multi none contents => ChildrenFit o depth contents
  | .subsection _ prototype => Fits o depth prototype
  | .switch cases default => CasesFit o depth cases ∧ OutputFits o depth default

/-- All children fit. -/
def ChildrenFit (o : LayoutOptions) (depth : ℕ) : List Node → Prop
  | [] => True
  | child :: rest => Fits o depth child ∧ ChildrenFit o depth rest

/-- The outputs of all cases fit. -/
def CasesFit (o : LayoutOptions) (depth : ℕ) : List (Condition × Option Node) → Prop
  | [] => True
  | (_, output) :: rest => OutputFits o depth output ∧ CasesFit o depth rest

/-- The output of an alternative fits, if there is one. -/
def OutputFits (o : LayoutOptions) (depth : ℕ) : Option Node → Prop
  | none => True
  | some output => Fits o depth output

end

end Node

/-! ### Compiling does what a tree tells -/

open Declaring

/-- A value does what it tells. -/
theorem Value.piece_performs (level : TrustLevel) (value : Value) :
    (value.piece level).Performs True (value.verify level) (value.uses level) := by
  cases value with
  | concrete s => exact (orTrust_performs (s.check level)).map Piece.text
  | deferred v => exact (attach_performs v level).map fun w => Piece.step (.scalar w none)

/-- A text does what it tells. -/
theorem Value.textPiece_performs (o : LayoutOptions) (depth : ℕ) (width : Option ℕ)
    (value : Value) :
    (value.textPiece o depth width).Performs (value.Fits (o.reflow depth width))
      (value.verify .textSafe) (value.uses .textSafe) := by
  cases value with
  | deferred v => exact (attach_performs v .textSafe).map _
  | concrete s =>
      rw [textPiece, verify, uses, Fits]
      cases hcheck : s.check .textSafe with
      | error e =>
          intro scope
          exact .inr (.inl ⟨_, scope, rfl, rfl⟩)
      | ok checked =>
          have hfill := (orOverflow_performs ((o.reflow depth width).apply checked)).map Piece.text
          refine hfill.congr ⟨fun h _ hsame => ?_, fun h => h checked rfl⟩ rfl rfl
          cases hsame
          exact h

/-- An attribute does what it tells. -/
theorem Attribute.pieces_performs (a : Attribute) :
    a.pieces.Performs True a.verify (a.value.uses a.required) := by
  rw [pieces, verify]
  have hname : Declaring.Performs
      (discard <| orStructure <| SlotName.checked .attribute a.name) True
      (.ofStructure (SlotName.checked .attribute a.name)) [] := by
    cases SlotName.checked .attribute a.name with
    | ok slot => exact .pure _
    | error e => exact .throw _
  exact hname.after fun _ => (a.value.piece_performs a.required).map _

namespace Element

/-- Attributes do what they tell. -/
theorem attributePieces_performs (e : Element) : ∀ attributes : List Attribute,
    (e.attributePieces attributes).Performs True (e.verifyAttributes attributes)
      (attributes.flatMap fun a => a.value.uses a.required)
  | [] => .pure []
  | a :: rest => by
      rw [attributePieces, verifyAttributes, List.flatMap_cons]
      refine ((a.pieces_performs.within (.attribute a.name e.name)).bind fun {_ _ first} _ =>
        (e.attributePieces_performs rest).map (first ++ ·)).congr ?_ rfl rfl
      exact and_iff_left trivial

/-- An opening tag does what it tells. -/
theorem openingPieces_performs (e : Element) : e.openingPieces.Performs True e.verify e.uses :=
  (e.attributePieces_performs _).map _

end Element

namespace Node

mutual

/-- **Compiling a tree does what the tree tells.** -/
theorem pieces_performs (o : LayoutOptions) (depth : ℕ) : ∀ node : Node,
    (node.pieces o depth).Performs (node.Fits o depth) node.verify node.uses
  | .element e contents => by
      rw [pieces_element, Fits, verify, uses]
      refine (orStructure_performs _).after fun _ => ?_
      cases hclosed : e.isClosed with
      | true =>
          rw [if_pos rfl, if_pos rfl, List.append_nil]
          refine (e.openingPieces_performs.map (e.startPieces o depth ++ ·)).congr
            ⟨fun _ => nofun, fun _ => trivial⟩ ?_ rfl
          rcases e.verify with error | ⟨⟨⟩⟩ <;> rfl
      | false =>
          rw [if_neg (by simp), if_neg (by simp)]
          have hcontents : ∀ {s t inner}, e.enter o depth s = .ok inner t →
              (childPieces o inner (.element e.name) 1 contents).Performs
                (ChildrenFit o (e.innerDepth o depth) contents)
                (verifyChildren (.element e.name) 1 contents) (childUses contents) := by
            intro s t inner hinner
            rw [Element.eq_innerDepth_of_enter hinner]
            exact childPieces_performs o _ (.element e.name) 1 contents
          exact (e.openingPieces_performs.bind fun {_ _ opening} _ =>
            (e.enter_performs o depth).bind fun {_ _ inner} hinner =>
              (hcontents hinner).map fun body =>
                e.startPieces o depth ++ opening ++ e.breakPieces o inner ++ body
                  ++ e.breakPieces o depth ++ [.text s!"</{e.name}>"]).congr
            ⟨fun h _ => h.2, fun h => ⟨trivial, h rfl⟩⟩ rfl rfl
  | .text value width => by
      rw [pieces, Fits, verify, uses]
      exact (value.textPiece_performs o depth width).map _
  | .raw value => by
      rw [pieces, Fits, verify, uses]
      exact (value.piece_performs .htmlSafe).map _
  | .multi (some error) contents => by
      rw [pieces, Fits, verify]
      exact .throw _
  | .multi none contents => by
      rw [pieces, Fits, verify, uses]
      exact childPieces_performs o depth .multi 1 contents
  | .subsection name prototype => by
      have hprototype := (pieces_performs o depth prototype).within (.subsection name)
      rw [pieces, Fits, verify, uses]
      cases hname : SlotName.ofString? name with
      | none =>
          have hchecked : SlotName.checked .subsection name
              = .error (.invalidName .subsection name) := by
            rw [SlotName.checked, hname]
          rw [hchecked]
          intro s
          exact .inr (.inl ⟨_, s, rfl, rfl⟩)
      | some slot =>
          refine (orStructure_performs _).after fun {_ _ found} hfound => ?_
          obtain rfl : slot = found := Option.some.inj
            (hname.symm.trans (SlotName.ofString?_of_checked (eq_ok_of_orStructure hfound)))
          exact (hprototype.inSubsection slot).map _
  | .switch cases default => by
      rw [pieces, Fits, verify, uses]
      exact (casePrograms_performs o depth 1 cases.length cases).bind fun _ =>
        (defaultProgram_performs o depth default).map _

/-- Compiling children does what they tell. -/
theorem childPieces_performs (o : LayoutOptions) (depth : ℕ) (parent : Parent) (number : ℕ) :
    ∀ contents : List Node, (childPieces o depth parent number contents).Performs
      (ChildrenFit o depth contents) (verifyChildren parent number contents) (childUses contents)
  | [] => .pure []
  | child :: rest => by
      rw [childPieces, ChildrenFit, verifyChildren, childUses]
      exact ((pieces_performs o depth child).within (.child number parent)).bind fun _ =>
        (childPieces_performs o depth parent (number + 1) rest).map _

/-- Compiling cases does what they tell. -/
theorem casePrograms_performs (o : LayoutOptions) (depth number count : ℕ) :
    ∀ cases : List (Condition × Option Node), (casePrograms o depth number count cases).Performs
      (CasesFit o depth cases) (verifyCases number count cases) (caseUses cases)
  | [] => .pure []
  | (condition, none) :: rest => by
      rw [casePrograms, CasesFit, OutputFits, verifyCases, caseUses, outputUses, List.nil_append,
        true_and]
      exact (casePrograms_performs o depth (number + 1) count rest).map _
  | (condition, some output) :: rest => by
      rw [casePrograms, CasesFit, OutputFits, verifyCases, caseUses, outputUses]
      exact ((pieces_performs o depth output).within (.case number count)).bind fun _ =>
        (casePrograms_performs o depth (number + 1) count rest).map _

/-- Compiling the default of a switch does what it tells. -/
theorem defaultProgram_performs (o : LayoutOptions) (depth : ℕ) : ∀ default : Option Node,
    (defaultProgram o depth default).Performs (OutputFits o depth default)
      (verifyDefault default) (outputUses default)
  | none => .pure none
  | some output => by
      rw [defaultProgram, OutputFits, verifyDefault, outputUses]
      exact ((pieces_performs o depth output).within .defaultCase).map _

end

/-- **What a tree is compiled to**: counters overflow, because something does not fit; or the
first failure is reported; or there is a template, everything fits, and the schema has what the
tree declares. -/
theorem compile_cases (o : LayoutOptions) (node : Node) (scope : Scope) :
    (¬ node.Fits o o.rootDepth ∧
      ∃ overflow next, node.compile o scope = (.error (.overflow overflow), next)) ∨
    (∃ e next, node.verify = .error e ∧ node.compile o scope = (.error e, next)) ∨
    (node.Fits o o.rootDepth ∧ node.verify = .ok () ∧
      ∃ t, node.compile o scope = (.ok t, (scope.useAll node.uses).next) ∧
        t.schema = (scope.useAll node.uses).schema) := by
  obtain ⟨hfits, overflow, s, hrun⟩ | ⟨e, s, hverify, hrun⟩ | ⟨hfits, hverify, found, hrun⟩ :=
    node.pieces_performs o o.rootDepth scope
  · exact .inl ⟨hfits, overflow, s.next, by rw [compile, hrun]⟩
  · exact .inr (.inl ⟨e, s.next, hverify, by rw [compile, hrun]⟩)
  · exact .inr (.inr ⟨hfits, hverify, _, by rw [compile, hrun], rfl⟩)

/-- If there is a template, everything fits, no check fails, and the schema has what the tree
declares. -/
theorem compile_eq_ok {o : LayoutOptions} {node : Node} {scope : Scope} {t : Template} {next : ℕ}
    (h : node.compile o scope = (.ok t, next)) :
    node.Fits o o.rootDepth ∧ node.verify = .ok () ∧
      t.schema = (scope.useAll node.uses).schema := by
  obtain ⟨-, x, _, hrun⟩ | ⟨e, _, -, hrun⟩ | ⟨hfits, hverify, t', hrun, hschema⟩ :=
    compile_cases o node scope
  · rw [hrun] at h
    cases h
  · rw [hrun] at h
    cases h
  · rw [hrun] at h
    cases h
    exact ⟨hfits, hverify, hschema⟩

/-- If everything fits and no check fails, there is a template. -/
theorem exists_compile_eq_ok {o : LayoutOptions} {node : Node} (scope : Scope)
    (hfits : node.Fits o o.rootDepth) (hverify : node.verify = .ok ()) :
    ∃ t next, node.compile o scope = (.ok t, next) := by
  obtain ⟨hno, -⟩ | ⟨e, _, herror, -⟩ | ⟨-, -, t, hrun, -⟩ := compile_cases o node scope
  · exact absurd hfits hno
  · rw [hverify] at herror
    cases herror
  · exact ⟨t, _, hrun⟩

/-- A tree whose check fails is not compiled: the failure is reported, unless a counter
overflows. -/
theorem compile_of_verify_eq_error {o : LayoutOptions} {node : Node} {scope : Scope} {e : Abort}
    (hcounters : ∀ x, (node.compile o scope).1 ≠ .error (.overflow x))
    (hverify : node.verify = .error e) : ∃ next, node.compile o scope = (.error e, next) := by
  obtain ⟨-, x, _, hrun⟩ | ⟨e', next, herror, hrun⟩ | ⟨-, hok, -⟩ := compile_cases o node scope
  · exact absurd (congrArg Prod.fst hrun) (hcounters x)
  · rw [hverify] at herror
    cases herror
    exact ⟨next, hrun⟩
  · rw [hverify] at hok
    cases hok

/-- A tree whose checks pass is compiled, unless a counter overflows. -/
theorem compile_of_verify_eq_ok {o : LayoutOptions} {node : Node} {scope : Scope}
    (hcounters : ∀ x, (node.compile o scope).1 ≠ .error (.overflow x))
    (hverify : node.verify = .ok ()) : ∃ t next, node.compile o scope = (.ok t, next) := by
  obtain ⟨-, x, _, hrun⟩ | ⟨e, _, herror, -⟩ | ⟨hfits, -⟩ := compile_cases o node scope
  · exact absurd (congrArg Prod.fst hrun) (hcounters x)
  · rw [hverify] at herror
    cases herror
  · exact exists_compile_eq_ok scope hfits hverify

end Node

end

end TrustedHtml
