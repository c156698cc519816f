import TrustedHtml.Proofs.Declaring
import TrustedHtml.Proofs.OnlyDeclares

/-!
# Declaring Again

Declaring what is declared already changes nothing: a variable keeps its level if it is joined
with one below it, and a subsection that has the name is found. This is true not only at once.
Whatever was declared since, an operation that is carried out again ends as it did before, with
the same answer or the same failure, and leaves the scope as it finds it. An operation that does
so *settles*.

A schema is only a later state of what the whole operation left. That it is also a later state of
what each part of it left follows because operations only declare; so there is one rule for every
way in which operations are made.

The answer of a declaration of a variable is the level that is required then, which can be higher
when it is made again. So such a declaration settles only if its answer is not used.

## Main definitions

* `Declaring.Settles`: carried out again, an operation does nothing.

## Main results

* `Declaring.Settles.bind`, `Declaring.Settles.inSubsection`: sequencing, and work in subsections.
* `Declaring.bindings_settles`: **deriving a schema from arguments settles.**
-/

namespace TrustedHtml

/-- An entry that is put where it stands changes nothing. -/
theorem set_of_getElem?_eq {α : Type} {entries : List α} {i : ℕ} {a : α}
    (h : entries[i]? = some a) : entries.set i a = entries := by
  obtain ⟨hlt, rfl⟩ := List.getElem?_eq_some_iff.mp h
  exact List.set_getElem_self hlt

namespace Schema

variable {s : Schema}

/-- A level that is required already can be declared without a change. -/
theorem declare_of_le (h : s.WellFormed) {i : ℕ} {w : Var} (hw : s.scalars[i]? = some w)
    {level : TrustLevel} (hle : level ≤ w.level) : s.declare w.name level = (w, s) := by
  obtain ⟨rfl, -⟩ := h.coherent.var_at hw
  have hfind := h.coherent.scalar?_eq_some_iff.mpr ⟨hw, rfl⟩
  have hlevel : w.level.join level = w.level := sup_eq_left.mpr hle
  rw [declare, hfind]
  dsimp only
  rw [hlevel]
  have hset := set_of_getElem?_eq hw
  obtain ⟨id, strict, nesting, scalars, subsections⟩ := s
  exact congrArg (fun same => (w, Schema.mk id strict nesting same subsections)) hset

/-- The schema of rows that is there can be put in place without a change. -/
theorem setChild_self {t : Tag} {d : Schema} (hsub : s.subsections[t.index]? = some (t, d)) :
    s.setChild t d = s := by
  have hset := set_of_getElem?_eq hsub
  obtain ⟨id, strict, nesting, scalars, subsections⟩ := s
  exact congrArg (Schema.mk id strict nesting scalars) hset

end Schema

/-- A subsection that is declared already is found. -/
theorem Scope.declareSubsection_of_getElem? {s : Scope} (h : s.schema.WellFormed) {t : Tag}
    {d : Schema} (hsub : s.schema.subsections[t.index]? = some (t, d)) :
    s.declareSubsection t.name = ((t, d), s) := by
  rcases declareSubsection_cases h.coherent t.name with ⟨sub, hat, hname, heq⟩ | ⟨_, hnew, -, -⟩
  · have hfind := h.coherent.find_subsection_eq_some_iff.mpr ⟨hat, hname⟩
    have hfind' := (@Schema.Coherent.find_subsection_eq_some_iff _ h.coherent (t, d) t.name).mpr
      ⟨hsub, rfl⟩
    rw [heq, Option.some.inj (hfind.symm.trans hfind')]
  · exact absurd (List.mem_map_of_mem (List.mem_of_getElem? hsub)) hnew

namespace Declaring

variable {α β : Type}

/-- How an operation ended, with another scope. -/
def resume (r : EStateM.Result Abort Scope α) (g : Scope) : EStateM.Result Abort Scope α :=
  match r with
  | .ok a _ => .ok a g
  | .error e _ => .error e g

/-- **Carried out again, an operation does nothing**: with every later state of what it left it
ends in the same way, and leaves that state as it is. -/
structure Settles (act : Declaring α) : Prop where
  declares : act.OnlyDeclares
  again : ∀ {s g : Scope}, s.schema.WellFormed → g.schema.WellFormed →
    (act.after s).schema.Extends g.schema → act g = resume (act s) g

variable {act : Declaring α} {s g : Scope}

/-- An operation that settles leaves the scope that it finds. -/
theorem Settles.after_eq (hact : act.Settles) (h : s.schema.WellFormed) (hg : g.schema.WellFormed)
    (hext : (act.after s).schema.Extends g.schema) : act.after g = g := by
  rw [after, hact.again h hg hext]
  cases act s <;> rfl

/-- **An operation that is carried out twice** ends in the same way as if it is carried out
once. -/
theorem Settles.twice (hact : act.Settles) (h : s.schema.WellFormed) :
    act (act.after s) = act s := by
  rw [hact.again h (hact.declares.extends h).1 (.refl _), after]
  cases act s <;> rfl

/-! ### One rule for every way in which operations are made -/

/-- An answer. -/
theorem Settles.pure (a : α) : Settles (Pure.pure a) :=
  ⟨.pure a, fun _ _ _ => rfl⟩

/-- A failure. -/
theorem Settles.throw (e : Abort) : Settles (MonadExcept.throw e : Declaring α) :=
  ⟨.throw e, fun _ _ _ => rfl⟩

/-- One operation after another. What the first one left is an earlier state of what both leave. -/
theorem Settles.bind {k : α → Declaring β} (h : act.Settles) (hk : ∀ a, (k a).Settles) :
    (act >>= k).Settles := by
  refine ⟨h.declares.bind fun a => (hk a).declares, fun {s g} hs hg hext => ?_⟩
  have hgrown := h.declares.extends hs
  have hagain := h.again hs hg
  simp only [Bind.bind, after, EStateM.bind] at hext hgrown hagain ⊢
  cases hact : act s with
  | error e t =>
      rw [hact] at hext hagain
      rw [hagain hext]
      rfl
  | ok a t =>
      rw [hact] at hext hgrown hagain
      have hlater := (hk a).declares.extends hgrown.1
      rw [hagain (hlater.2.trans hext)]
      exact (hk a).again hgrown.1 hg hext

/-- An operation whose answer is not used. -/
theorem Settles.discard (h : act.Settles) : (Functor.discard act).Settles := by
  refine ⟨h.declares.discard, fun {s g} hs hg hext => ?_⟩
  have hagain := h.again hs hg
  simp only [Functor.discard, Functor.mapConst, EStateM.map, Function.comp, after]
    at hext hagain ⊢
  cases hact : act s <;> (rw [hact] at hext hagain; rw [hagain hext]; rfl)

/-- Declaring a variable. -/
theorem scalar_settles (name : SlotName) (level : TrustLevel) :
    (Functor.discard (scalar name level)).Settles := by
  refine ⟨(scalar_onlyDeclares name level).discard, fun {s g} hs hg hext => ?_⟩
  obtain ⟨-, -, v, hv, hname, hlevel⟩ := Schema.offers_declare hs name level
  obtain ⟨w, hw, hname', hlevel'⟩ := hext.scalar hv
  have hdeclared := Schema.declare_of_le hg hw (hlevel.trans hlevel')
  rw [hname', hname] at hdeclared
  change EStateM.Result.ok () (Scope.mk (g.schema.declare name level).2 g.next) = .ok () g
  rw [hdeclared]

/-- Attaching a variable. -/
theorem attach_settles (v : Var) (extra : TrustLevel) :
    (Functor.discard (attach v extra)).Settles :=
  scalar_settles v.name (v.level.join extra)

/-- Working on the schema of the rows of a subsection. -/
theorem Settles.inSubsection (h : act.Settles) (name : SlotName) :
    (inSubsection name act).Settles := by
  refine ⟨h.declares.inSubsection name, fun {s g} hs hg hext => ?_⟩
  obtain ⟨hsub, hname⟩ := Scope.getElem?_declareSubsection hs name
  have hrows : (s.inside name).schema.WellFormed :=
    (Scope.declareSubsection_wellFormed hs name).child (List.mem_of_getElem? hsub)
  have hafter : ((Declaring.inSubsection name act).after s).schema =
      (s.declareSubsection name).2.schema.setChild (s.declareSubsection name).1.1
        (act.after (s.inside name)).schema := by
    simp only [after, Declaring.inSubsection, Scope.inside]
    cases act ⟨(s.declareSubsection name).1.2, (s.declareSubsection name).2.next⟩ <;> rfl
  rw [hafter] at hext
  obtain ⟨d, hd, hext'⟩ :=
    hext.subsection (Schema.getElem?_setChild hsub (act.after (s.inside name)).schema)
  have hfound := Scope.declareSubsection_of_getElem? hg hd
  rw [hname] at hfound
  have hagain := @Settles.again _ _ h (s.inside name) ⟨d, g.next⟩ hrows
    (hg.child (List.mem_of_getElem? hd)) hext'
  simp only [Declaring.inSubsection, hfound, hagain, Scope.inside]
  cases act ⟨(s.declareSubsection name).1.2, (s.declareSubsection name).2.next⟩ <;>
    simp only [resume, Schema.setChild_self hd]

/-- A name of a variable. -/
theorem varName_settles (name : String) : (varName name).Settles := by
  rw [varName]
  split
  · exact .pure _
  · exact .throw _

/-- A name of a subsection. -/
theorem subsectionName_settles (name : String) : (subsectionName name).Settles := by
  rw [subsectionName]
  split
  · exact .pure _
  · exact .throw _

/-- Looking up the name that a key addresses. The identity of a schema never changes. -/
theorem keyTagName_settles (key : Key Tag) : (keyTagName key).Settles := by
  cases key with
  | name n => exact subsectionName_settles n
  | handle t =>
      refine ⟨keyTagName_onlyDeclares (.handle t), fun {s g} hs hg hext => ?_⟩
      have hafter : (keyTagName (.handle t)).after s = s := by
        rw [after, keyTagName_handle]
        split_ifs <;> rfl
      rw [hafter] at hext
      rw [keyTagName_handle, keyTagName_handle, hext.id_eq]
      split_ifs <;> rfl

/-! ### Deriving a schema from arguments -/

mutual

/-- Declaring what an argument uses. -/
theorem binding_settles : ∀ arg : BindArg, (binding arg).Settles
  | .scalar (.handle v) _ level => attach_settles v level
  | .scalar (.name n) _ level => (varName_settles n).bind fun name => scalar_settles name level
  | .rows key rows =>
      (keyTagName_settles key).bind fun name =>
        ((bindingRows_settles rows).inSubsection name).discard

/-- Declaring what rows use. -/
theorem bindingRows_settles : ∀ rows : List (List BindArg), (bindingRows rows).Settles
  | [] => .pure ()
  | row :: rest => (bindings_settles row).bind fun _ => bindingRows_settles rest

/-- **Deriving a schema from arguments settles.** -/
theorem bindings_settles : ∀ args : List BindArg, (bindings args).Settles
  | [] => .pure ()
  | arg :: rest => (binding_settles arg).bind fun _ => bindings_settles rest

end

end Declaring

end TrustedHtml
