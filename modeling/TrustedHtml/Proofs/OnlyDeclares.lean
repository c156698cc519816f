import TrustedHtml.Proofs.Requirements

/-!
# Operations That Only Declare

Whatever becomes of an operation that declares, the scope that it leaves is the one it was given
with some declarations made in order. This holds after a failure as well as after a success: what
was declared up to a failure stays, and nothing else has happened. So what every declaration
preserves, deriving a schema from arguments and compiling a tree preserve, and no invariant of
schemas has to be carried through them again.

## Main definitions

* `Declaring.after`: the scope that an operation leaves.
* `Declaring.OnlyDeclares`: an operation makes declarations and changes nothing else.
* `Declaring.DeclaresOnly`: they are of one kind.

## Main results

* `Declaring.OnlyDeclares.extends`: declarations leave a later state of the schema.
* `Declaring.bindings_onlyDeclares`: **deriving a schema from arguments only declares.**
* `Node.pieces_onlyDeclares`, `Node.compile_declares`: **compiling only declares.**
-/

namespace TrustedHtml

namespace Declaring

variable {α β : Type}

/-- The scope that an operation leaves, whether it succeeds or fails. -/
def after (act : Declaring α) (s : Scope) : Scope :=
  match act s with
  | .ok _ t => t
  | .error _ t => t

/-- **An operation only declares**: it leaves the scope that some declarations leave. -/
def OnlyDeclares (act : Declaring α) : Prop :=
  ∀ s : Scope, ∃ uses, act.after s = s.useAll uses

/-- **An operation only makes some declarations**, those of which `C` holds. -/
def DeclaresOnly (act : Declaring α) (C : Use → Prop) : Prop :=
  ∀ s : Scope, ∃ uses, act.after s = s.useAll uses ∧ ∀ u ∈ uses, C u

variable {act : Declaring α} {C : Use → Prop}

/-- An operation that only declares makes any declarations. -/
theorem onlyDeclares_iff : act.OnlyDeclares ↔ act.DeclaresOnly fun _ => True := by
  simp [OnlyDeclares, DeclaresOnly]

/-! ### One rule for every way in which operations are made -/

/-- An answer. -/
theorem DeclaresOnly.pure (a : α) : DeclaresOnly (Pure.pure a) C :=
  fun _ => ⟨[], rfl, nofun⟩

/-- A failure. -/
theorem DeclaresOnly.throw (e : Abort) :
    DeclaresOnly (MonadExcept.throw e : Declaring α) C :=
  fun _ => ⟨[], rfl, nofun⟩

/-- One operation after another, if the first one succeeds. -/
theorem DeclaresOnly.bind {k : α → Declaring β} (h : act.DeclaresOnly C)
    (hk : ∀ {s t : Scope} {a : α}, act s = .ok a t → (k a).DeclaresOnly C) :
    (act >>= k).DeclaresOnly C := by
  intro s
  obtain ⟨uses, hafter, huses⟩ := h s
  rw [after] at hafter ⊢
  simp only [Bind.bind, EStateM.bind]
  cases hact : act s with
  | ok a t =>
      rw [hact] at hafter
      obtain rfl : t = s.useAll uses := hafter
      obtain ⟨later, hlater, hall⟩ := hk hact (s.useAll uses)
      refine ⟨uses ++ later, by rw [Scope.useAll_append, ← hlater, after], fun u hu => ?_⟩
      exact (List.mem_append.mp hu).elim (huses u) (hall u)
  | error e t =>
      rw [hact] at hafter
      exact ⟨uses, hafter, huses⟩

/-- An operation whose answer is not used. -/
theorem DeclaresOnly.discard (h : act.DeclaresOnly C) :
    (Functor.discard act).DeclaresOnly C := by
  intro s
  obtain ⟨uses, hafter, huses⟩ := h s
  refine ⟨uses, ?_, huses⟩
  rw [after] at hafter ⊢
  simp only [Functor.discard, Functor.mapConst, EStateM.map, Function.comp]
  cases hact : act s <;> (rw [hact] at hafter; exact hafter)

/-- Working on the schema of the rows of a subsection is declaring a subsection with what is
declared there. -/
theorem DeclaresOnly.inSubsection (h : act.DeclaresOnly C) (name : SlotName) :
    (inSubsection name act).DeclaresOnly fun u =>
      ∃ uses, u = .subsection name uses ∧ ∀ inner ∈ uses, C inner := by
  intro s
  obtain ⟨uses, hafter, huses⟩ := h (s.inside name)
  refine ⟨[.subsection name uses], ?_, fun u hu => ⟨uses, List.mem_singleton.mp hu, huses⟩⟩
  rw [Scope.useAll, Scope.useAll, Scope.use, ← hafter, after, after]
  simp only [Declaring.inSubsection, Scope.inside]
  cases act ⟨(s.declareSubsection name).1.2, (s.declareSubsection name).2.next⟩ <;> rfl

/-- Declarations of a wider kind. -/
theorem DeclaresOnly.mono {C' : Use → Prop} (h : act.DeclaresOnly C) (himp : ∀ u, C u → C' u) :
    act.DeclaresOnly C' := by
  intro s
  obtain ⟨uses, hafter, huses⟩ := h s
  exact ⟨uses, hafter, fun u hu => himp u (huses u hu)⟩

/-- An answer. -/
theorem OnlyDeclares.pure (a : α) : OnlyDeclares (Pure.pure a) :=
  onlyDeclares_iff.mpr (.pure a)

/-- A failure. -/
theorem OnlyDeclares.throw (e : Abort) : OnlyDeclares (MonadExcept.throw e : Declaring α) :=
  onlyDeclares_iff.mpr (.throw e)

/-- One operation after another, if the first one succeeds. -/
theorem OnlyDeclares.bind {k : α → Declaring β} (h : act.OnlyDeclares)
    (hk : ∀ a, (k a).OnlyDeclares) : (act >>= k).OnlyDeclares :=
  onlyDeclares_iff.mpr ((onlyDeclares_iff.mp h).bind fun _ => onlyDeclares_iff.mp (hk _))

/-- An operation whose answer is not used. -/
theorem OnlyDeclares.discard (h : act.OnlyDeclares) : (Functor.discard act).OnlyDeclares :=
  onlyDeclares_iff.mpr (onlyDeclares_iff.mp h).discard

/-- Describing failures changes nothing else. -/
theorem OnlyDeclares.within (step : Step) (h : act.OnlyDeclares) :
    (act.within step).OnlyDeclares := by
  intro s
  obtain ⟨uses, hafter⟩ := h s
  refine ⟨uses, ?_⟩
  rw [after] at hafter ⊢
  simp only [Declaring.within]
  cases hact : act s <;> (rw [hact] at hafter; exact hafter)

/-- Working on the schema of the rows of a subsection. -/
theorem OnlyDeclares.inSubsection (h : act.OnlyDeclares) (name : SlotName) :
    (inSubsection name act).OnlyDeclares :=
  onlyDeclares_iff.mpr (((onlyDeclares_iff.mp h).inSubsection name).mono fun _ _ => trivial)

/-- A declaration of a variable. -/
theorem scalar_onlyDeclares (name : SlotName) (level : TrustLevel) :
    (scalar name level).OnlyDeclares :=
  fun _ => ⟨[.scalar name level], rfl⟩

/-- Attaching a variable. -/
theorem attach_onlyDeclares (v : Var) (extra : TrustLevel) : (attach v extra).OnlyDeclares :=
  scalar_onlyDeclares v.name (v.level.join extra)

/-- A check of structure. -/
theorem orStructure_onlyDeclares (r : Except StructureError α) :
    (orStructure r).OnlyDeclares := by
  cases r with
  | ok a => exact .pure a
  | error e => exact .throw _

/-- A check of trust. -/
theorem orTrust_onlyDeclares (r : Except TrustError α) : (orTrust r).OnlyDeclares := by
  cases r with
  | ok a => exact .pure a
  | error e => exact .throw _

/-- A counter. -/
theorem orOverflow_onlyDeclares (r : Except Overflow α) : (orOverflow r).OnlyDeclares := by
  cases r with
  | ok a => exact .pure a
  | error e => exact .throw _

/-- A name of a variable. -/
theorem varName_onlyDeclares (name : String) : (varName name).OnlyDeclares := by
  rw [varName]
  split
  · exact .pure _
  · exact .throw _

/-- A name of a subsection. -/
theorem subsectionName_onlyDeclares (name : String) : (subsectionName name).OnlyDeclares := by
  rw [subsectionName]
  split
  · exact .pure _
  · exact .throw _

/-- What an operation that only declares leaves is a later state. -/
theorem OnlyDeclares.extends (hact : act.OnlyDeclares) {s : Scope} (h : s.schema.WellFormed) :
    (act.after s).schema.WellFormed ∧ s.schema.Extends (act.after s).schema := by
  obtain ⟨uses, hafter⟩ := hact s
  rw [hafter]
  exact Scope.useAll_wellFormed h uses

/-! ### Deriving a schema from arguments -/

/-- Looking up the name that a key addresses declares nothing. -/
theorem keyTagName_declaresOnly (key : Key Tag) : (keyTagName key).DeclaresOnly C := by
  cases key with
  | name n =>
      rw [keyTagName, subsectionName]
      split
      · exact .pure _
      · exact .throw _
  | handle t =>
      intro s
      refine ⟨[], ?_, nofun⟩
      change (if t.parent = s.schema.id then Pure.pure t.name else MonadExcept.throw _ :
        Declaring SlotName).after s = s
      split <;> rfl

/-- Looking up the name that a key addresses. -/
theorem keyTagName_onlyDeclares (key : Key Tag) : (keyTagName key).OnlyDeclares :=
  onlyDeclares_iff.mpr (keyTagName_declaresOnly key)

mutual

/-- Declaring what an argument uses. -/
theorem binding_onlyDeclares : ∀ arg : BindArg, (binding arg).OnlyDeclares
  | .scalar (.handle v) _ level => (attach_onlyDeclares v level).discard
  | .scalar (.name n) _ level =>
      (varName_onlyDeclares n).bind fun name => (scalar_onlyDeclares name level).discard
  | .rows key rows =>
      (keyTagName_onlyDeclares key).bind fun name =>
        ((bindingRows_onlyDeclares rows).inSubsection name).discard

/-- Declaring what rows use. -/
theorem bindingRows_onlyDeclares : ∀ rows : List (List BindArg),
    (bindingRows rows).OnlyDeclares
  | [] => .pure ()
  | row :: rest => (bindings_onlyDeclares row).bind fun _ => bindingRows_onlyDeclares rest

/-- **Deriving a schema from arguments only declares.** -/
theorem bindings_onlyDeclares : ∀ args : List BindArg, (bindings args).OnlyDeclares
  | [] => .pure ()
  | arg :: rest => (binding_onlyDeclares arg).bind fun _ => bindings_onlyDeclares rest

end

end Declaring

/-! ### Compiling -/

section

open Declaring

/-- Entering an element. -/
theorem Element.enter_onlyDeclares (o : LayoutOptions) (depth : ℕ) (e : Element) :
    (e.enter o depth).OnlyDeclares := by
  rw [enter]
  split
  · exact orOverflow_onlyDeclares _
  · exact .pure _

variable [UrlReader]

/-- A value at a place. -/
theorem Value.piece_onlyDeclares (level : TrustLevel) (value : Value) :
    (value.piece level).OnlyDeclares := by
  cases value with
  | concrete s => exact (orTrust_onlyDeclares _).bind fun _ => .pure _
  | deferred v => exact (attach_onlyDeclares v level).bind fun _ => .pure _

/-- A text. -/
theorem Value.textPiece_onlyDeclares (o : LayoutOptions) (depth : ℕ) (width : Option ℕ)
    (value : Value) : (value.textPiece o depth width).OnlyDeclares := by
  cases value with
  | concrete s =>
      exact (orTrust_onlyDeclares _).bind fun _ => (orOverflow_onlyDeclares _).bind fun _ => .pure _
  | deferred v => exact (attach_onlyDeclares v .textSafe).bind fun _ => .pure _

/-- An attribute. -/
theorem Attribute.pieces_onlyDeclares (a : Attribute) : a.pieces.OnlyDeclares :=
  (orStructure_onlyDeclares _).discard.bind fun _ =>
    (a.value.piece_onlyDeclares a.required).bind fun _ => .pure _

/-- The attributes of an element. -/
theorem Element.attributePieces_onlyDeclares (e : Element) : ∀ attributes : List Attribute,
    (e.attributePieces attributes).OnlyDeclares
  | [] => .pure []
  | a :: rest =>
      (a.pieces_onlyDeclares.within _).bind fun _ =>
        (e.attributePieces_onlyDeclares rest).bind fun _ => .pure _

/-- An opening tag. -/
theorem Element.openingPieces_onlyDeclares (e : Element) : e.openingPieces.OnlyDeclares :=
  (e.attributePieces_onlyDeclares _).bind fun _ => .pure _

namespace Node

mutual

/-- **Compiling a tree only declares.** -/
theorem pieces_onlyDeclares (o : LayoutOptions) (depth : ℕ) : ∀ node : Node,
    (node.pieces o depth).OnlyDeclares
  | .element e contents => by
      rw [pieces_element]
      refine (orStructure_onlyDeclares _).bind fun _ =>
        e.openingPieces_onlyDeclares.bind fun _ => ?_
      split
      · exact .pure _
      · exact (e.enter_onlyDeclares o depth).bind fun inner =>
          (childPieces_onlyDeclares o inner (.element e.name) 1 contents).bind fun _ => .pure _
  | .text value width => by
      rw [pieces]
      exact (value.textPiece_onlyDeclares o depth width).bind fun _ => .pure _
  | .raw value => by
      rw [pieces]
      exact (value.piece_onlyDeclares .htmlSafe).bind fun _ => .pure _
  | .multi (some error) contents => by
      rw [pieces]
      exact .throw _
  | .multi none contents => by
      rw [pieces]
      exact childPieces_onlyDeclares o depth .multi 1 contents
  | .subsection name prototype => by
      rw [pieces]
      refine (orStructure_onlyDeclares _).bind fun slot => ?_
      have hprototype := (pieces_onlyDeclares o depth prototype).within (.subsection name)
      exact (hprototype.inSubsection slot).bind fun _ => .pure _
  | .switch cases default => by
      rw [pieces]
      exact (casePrograms_onlyDeclares o depth 1 cases.length cases).bind fun _ =>
        (defaultProgram_onlyDeclares o depth default).bind fun _ => .pure _

/-- Compiling children only declares. -/
theorem childPieces_onlyDeclares (o : LayoutOptions) (depth : ℕ) (parent : Parent) (number : ℕ) :
    ∀ contents : List Node, (childPieces o depth parent number contents).OnlyDeclares
  | [] => .pure []
  | child :: rest => by
      rw [childPieces]
      exact ((pieces_onlyDeclares o depth child).within _).bind fun _ =>
        (childPieces_onlyDeclares o depth parent (number + 1) rest).bind fun _ => .pure _

/-- Compiling cases only declares. -/
theorem casePrograms_onlyDeclares (o : LayoutOptions) (depth number count : ℕ) :
    ∀ cases : List (Condition × Option Node),
      (casePrograms o depth number count cases).OnlyDeclares
  | [] => .pure []
  | (condition, none) :: rest => by
      rw [casePrograms]
      exact (casePrograms_onlyDeclares o depth (number + 1) count rest).bind fun _ => .pure _
  | (condition, some output) :: rest => by
      rw [casePrograms]
      exact ((pieces_onlyDeclares o depth output).within _).bind fun _ =>
        (casePrograms_onlyDeclares o depth (number + 1) count rest).bind fun _ => .pure _

/-- Compiling the default of a switch only declares. -/
theorem defaultProgram_onlyDeclares (o : LayoutOptions) (depth : ℕ) : ∀ default : Option Node,
    (defaultProgram o depth default).OnlyDeclares
  | none => .pure none
  | some output => by
      rw [defaultProgram]
      exact ((pieces_onlyDeclares o depth output).within _).bind fun _ => .pure _

end

/-- **Compiling only declares**, whether there is a template in the end or not. -/
theorem compile_declares (node : Node) (o : LayoutOptions) (scope : Scope) :
    ∃ uses, (node.compile o scope).2 = (scope.useAll uses).next ∧
      ∀ t, (node.compile o scope).1 = .ok t → t.schema = (scope.useAll uses).schema := by
  obtain ⟨uses, hafter⟩ := pieces_onlyDeclares o o.rootDepth node scope
  refine ⟨uses, ?_⟩
  rw [← hafter, after, compile]
  cases node.pieces o o.rootDepth scope with
  | error e final =>
      refine ⟨rfl, fun t ht => ?_⟩
      cases ht
  | ok found final =>
      refine ⟨rfl, fun t ht => ?_⟩
      cases ht
      rfl

end Node

end

end TrustedHtml
