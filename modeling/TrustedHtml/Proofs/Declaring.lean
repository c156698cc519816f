import TrustedHtml.Binding.Declare
import TrustedHtml.Proofs.SchemaGrowth
import TrustedHtml.Template.Compile

/-!
# What Declaring Operations Ensure

A declaring operation leaves a well-formed schema that extends the one it was given, whether
it succeeds or fails, and what it says about its answer has to hold not of that schema alone
but of every later state of it: answers are used when the schema is complete.

`Declaring.Ensures` is that contract, and this module gives one rule for every way in which
declaring operations are made. With them the contract of an operation is read off its
definition, and no proof above this module looks into the state.

## Main results

* `Declaring.bind_eq_ok`, `Declaring.bind_eq_error`: how two operations end, one after the other.
* `Declaring.Ensures.bind`, `Declaring.Ensures.pure`, `Declaring.Ensures.throw`: sequencing.
* `Declaring.attach_ensures`: the handle of a variable is offered from then on.
* `Declaring.Ensures.inSubsection`: what is ensured of the schema of the rows.
* `Declaring.keyTagName_ensures`: what the key of rows is good for.
-/

namespace TrustedHtml

namespace Declaring

variable {α β : Type} {act : Declaring α}

/-! ### How operations end -/

/-- An operation that begins with looking at the scope. -/
theorem get_bind (k : Scope → Declaring β) (s : Scope) : (get >>= k) s = k s s :=
  rfl

/-- An operation goes on after a success. -/
theorem bind_of_ok {k : α → Declaring β} {s t : Scope} {a : α} (h : act s = .ok a t) :
    (act >>= k) s = k a t := by
  simp only [Bind.bind, EStateM.bind, h]

/-- An operation ends with a failure. -/
theorem bind_of_error {k : α → Declaring β} {s t : Scope} {e : Abort} (h : act s = .error e t) :
    (act >>= k) s = .error e t := by
  simp only [Bind.bind, EStateM.bind, h]

/-- If two operations succeed, each of them does. -/
theorem bind_eq_ok {k : α → Declaring β} {s t : Scope} {b : β} (h : (act >>= k) s = .ok b t) :
    ∃ a mid, act s = .ok a mid ∧ k a mid = .ok b t := by
  cases hact : act s with
  | ok a mid =>
      rw [bind_of_ok hact] at h
      exact ⟨a, mid, rfl, h⟩
  | error e mid =>
      rw [bind_of_error hact] at h
      cases h

/-- If two operations fail, the first one does, or the second one after it. -/
theorem bind_eq_error {k : α → Declaring β} {s t : Scope} {e : Abort}
    (h : (act >>= k) s = .error e t) :
    act s = .error e t ∨ ∃ a mid, act s = .ok a mid ∧ k a mid = .error e t := by
  cases hact : act s with
  | ok a mid =>
      rw [bind_of_ok hact] at h
      exact .inr ⟨a, mid, rfl, h⟩
  | error e mid =>
      rw [bind_of_error hact] at h
      cases h
      exact .inl rfl

/-- There was an answer that is not used. -/
theorem discard_eq_ok {s t : Scope} {u : Unit} (h : Functor.discard act s = .ok u t) :
    ∃ a, act s = .ok a t := by
  simp only [Functor.discard, Functor.mapConst, EStateM.map, Function.comp] at h
  split at h <;> cases h
  rename_i hact
  exact ⟨_, hact⟩

/-- There was no answer. -/
theorem discard_eq_error {s t : Scope} {e : Abort} (h : Functor.discard act s = .error e t) :
    act s = .error e t := by
  simp only [Functor.discard, Functor.mapConst, EStateM.map, Function.comp] at h
  split at h <;> cases h
  rename_i hact
  exact hact

/-- Work on the schema of the rows of a subsection has succeeded. -/
theorem inSubsection_eq_ok {name : SlotName} {s t : Scope} {answer : Tag × α}
    (h : inSubsection name act s = .ok answer t) :
    let declared := s.declareSubsection name
    ∃ a inner, act ⟨declared.1.2, declared.2.next⟩ = .ok a inner ∧ answer = (declared.1.1, a) ∧
      t = ⟨declared.2.schema.setChild declared.1.1 inner.schema, inner.next⟩ := by
  simp only [inSubsection] at h
  split at h <;> cases h
  rename_i hact
  exact ⟨_, _, hact, rfl, rfl⟩

/-- Work on the schema of the rows of a subsection has failed. -/
theorem inSubsection_eq_error {name : SlotName} {s t : Scope} {e : Abort}
    (h : inSubsection name act s = .error e t) :
    let declared := s.declareSubsection name
    ∃ inner, act ⟨declared.1.2, declared.2.next⟩ = .error e inner ∧
      t = ⟨declared.2.schema.setChild declared.1.1 inner.schema, inner.next⟩ := by
  simp only [inSubsection] at h
  split at h <;> cases h
  rename_i hact
  exact ⟨_, hact, rfl⟩

/-- The contract of a declaring operation: the schema stays well-formed and only grows, and
`post` holds of the answer and of every later schema. -/
structure Ensures (act : Declaring α) (post : Schema → α → Prop) : Prop where
  ok : ∀ {s s' : Scope} {a : α}, s.schema.WellFormed → act s = .ok a s' →
    s'.schema.WellFormed ∧ s.schema.Extends s'.schema ∧ ∀ {f}, s'.schema.Extends f → post f a
  error : ∀ {s s' : Scope} {e : Abort}, s.schema.WellFormed → act s = .error e s' →
    s'.schema.WellFormed ∧ s.schema.Extends s'.schema

variable {post : Schema → α → Prop}

/-! ### Sequencing -/

/-- An answer without a declaration. -/
theorem Ensures.pure {a : α} (h : ∀ f, post f a) : Ensures (Pure.pure a) post where
  ok hs heq := by
    cases heq
    exact ⟨hs, .refl _, fun _ => h _⟩
  error _ heq := by cases heq

/-- A failure ensures anything of its answer. -/
theorem Ensures.throw {e : Abort} : Ensures (MonadExcept.throw e : Declaring α) post where
  ok _ heq := by cases heq
  error hs heq := by
    cases heq
    exact ⟨hs, .refl _⟩

/-- One operation after another. What is ensured of the first answer still holds when the
second operation has grown the schema. -/
theorem Ensures.bind {k : α → Declaring β} {post' : Schema → β → Prop} (h : act.Ensures post)
    (hk : ∀ a, (k a).Ensures fun f b => post f a → post' f b) : (act >>= k).Ensures post' where
  ok hs heq := by
    obtain ⟨a, mid, hact, hrest⟩ := bind_eq_ok heq
    obtain ⟨hmid, hext, hpost⟩ := h.ok hs hact
    obtain ⟨hwf, hext', hpost'⟩ := (hk a).ok hmid hrest
    exact ⟨hwf, hext.trans hext', fun hf => hpost' hf (hpost (hext'.trans hf))⟩
  error hs heq := by
    rcases bind_eq_error heq with hact | ⟨a, mid, hact, hrest⟩
    · exact h.error hs hact
    · obtain ⟨hmid, hext, -⟩ := h.ok hs hact
      obtain ⟨hwf, hext'⟩ := (hk a).error hmid hrest
      exact ⟨hwf, hext.trans hext'⟩

/-- A weaker contract. -/
theorem Ensures.mono {post' : Schema → α → Prop} (h : act.Ensures post)
    (himp : ∀ f a, post f a → post' f a) : act.Ensures post' where
  ok hs heq := by
    obtain ⟨hwf, hext, hpost⟩ := h.ok hs heq
    exact ⟨hwf, hext, fun hf => himp _ _ (hpost hf)⟩
  error hs heq := h.error hs heq

/-- An operation whose answer is not used. There was one. -/
theorem Ensures.discard (h : act.Ensures post) :
    (Functor.discard act).Ensures fun f _ => ∃ a, post f a where
  ok hs heq := by
    obtain ⟨a, hact⟩ := discard_eq_ok heq
    obtain ⟨hwf, hext, hpost⟩ := h.ok hs hact
    exact ⟨hwf, hext, fun hf => ⟨a, hpost hf⟩⟩
  error hs heq := h.error hs (discard_eq_error heq)

/-- Describing failures changes nothing else. -/
theorem Ensures.within (step : Step) (h : act.Ensures post) :
    (act.within step).Ensures post where
  ok {s s' a} hs heq := by
    simp only [Declaring.within] at heq
    split at heq
    · rename_i hact
      cases heq
      exact h.ok hs hact
    · cases heq
  error {s s' e} hs heq := by
    simp only [Declaring.within] at heq
    split at heq
    · cases heq
    · rename_i hact
      cases heq
      exact h.error hs hact

/-! ### Checks that declare nothing -/

/-- After an error of structure there is no answer. -/
theorem orStructure_ensures (r : Except StructureError α) :
    (orStructure r).Ensures fun _ a => r = .ok a := by
  cases r with
  | ok a => exact .pure fun _ => rfl
  | error e => exact .throw

/-- After an error of trust there is no answer. -/
theorem orTrust_ensures (r : Except TrustError α) :
    (orTrust r).Ensures fun _ a => r = .ok a := by
  cases r with
  | ok a => exact .pure fun _ => rfl
  | error e => exact .throw

/-- After an overflow there is no answer. -/
theorem orOverflow_ensures (r : Except Overflow α) :
    (orOverflow r).Ensures fun _ a => r = .ok a := by
  cases r with
  | ok a => exact .pure fun _ => rfl
  | error e => exact .throw

/-! ### Declarations -/

/-- A variable that is declared is offered from then on. -/
theorem scalar_ensures (name : SlotName) (level : TrustLevel) :
    (scalar name level).Ensures fun f w => f.Offers w name level where
  ok {s s' w} hs heq := by
    cases heq
    exact ⟨Schema.declare_wellFormed hs name level, Schema.extends_declare hs name level,
      fun hf => (Schema.offers_declare hs name level).extend hf⟩
  error _ heq := by cases heq

/-- A variable that is attached is offered from then on. -/
theorem attach_ensures (v : Var) (extra : TrustLevel) :
    (attach v extra).Ensures fun f w => f.Offers w v.name (v.level ⊔ extra) :=
  scalar_ensures v.name (v.level.join extra)

/-- The schema with the rows' schema as an operation left it: well-formed, and a later state
of the one the subsection was declared in. -/
theorem setChild_declareSubsection {s : Scope} {d : Schema} (hs : s.schema.WellFormed)
    (name : SlotName) (hd : d.WellFormed) (hext : (s.declareSubsection name).1.2.Extends d) :
    let declared := s.declareSubsection name
    (declared.2.schema.setChild declared.1.1 d).WellFormed ∧
      s.schema.Extends (declared.2.schema.setChild declared.1.1 d) := by
  obtain ⟨hsub, -⟩ := Scope.getElem?_declareSubsection hs name
  exact ⟨Schema.setChild_wellFormed (Scope.declareSubsection_wellFormed hs name) hsub hd,
    (Scope.extends_declareSubsection hs name).trans (Schema.extends_setChild hsub hext)⟩

/-- What is ensured of the schema of the rows holds of the schema that the subsection has in
every later state. -/
theorem Ensures.inSubsection (h : act.Ensures post) (name : SlotName) :
    (inSubsection name act).Ensures fun f (t, a) =>
      ∃ d, f.subsections[t.index]? = some (t, d) ∧ t.name = name ∧ post d a where
  ok hs heq := by
    obtain ⟨hsub, hname⟩ := Scope.getElem?_declareSubsection hs name
    have hc := (Scope.declareSubsection_wellFormed hs name).child (List.mem_of_getElem? hsub)
    obtain ⟨a, inner, hact, rfl, rfl⟩ := inSubsection_eq_ok heq
    obtain ⟨hwf, hext, hpost⟩ := h.ok hc hact
    obtain ⟨hwf', hext'⟩ := setChild_declareSubsection hs name hwf hext
    refine ⟨hwf', hext', fun {f} hf => ?_⟩
    obtain ⟨d, hd, hgrown⟩ := hf.subsection (Schema.getElem?_setChild hsub inner.schema)
    exact ⟨d, hd, hname, hpost hgrown⟩
  error hs heq := by
    obtain ⟨hsub, -⟩ := Scope.getElem?_declareSubsection hs name
    have hc := (Scope.declareSubsection_wellFormed hs name).child (List.mem_of_getElem? hsub)
    obtain ⟨inner, hact, rfl⟩ := inSubsection_eq_error heq
    obtain ⟨hwf, hext⟩ := h.error hc hact
    exact setChild_declareSubsection hs name hwf hext

/-! ### Names of arguments -/

/-- A name of a variable is the one that is given. -/
theorem varName_ensures (name : String) :
    (varName name).Ensures fun _ slot => slot.text = name := by
  rw [varName, SlotName.ofString?]
  split
  · rename_i slot hslot
    split at hslot <;> cases hslot
    exact .pure fun _ => rfl
  · exact .throw

/-- A name of a subsection is the one that is given. -/
theorem subsectionName_ensures (name : String) :
    (subsectionName name).Ensures fun _ slot => slot.text = name := by
  rw [subsectionName, SlotName.ofString?]
  split
  · rename_i slot hslot
    split at hslot <;> cases hslot
    exact .pure fun _ => rfl
  · exact .throw

/-- The handle of a subsection gives its name to the schema that it belongs to. -/
theorem keyTagName_handle (t : Tag) (s : Scope) : keyTagName (.handle t) s =
    if t.parent = s.schema.id then .ok t.name s
    else .error (.ofCause (.bind (.foreignSubsection t.name.text))) s := by
  change (if t.parent = s.schema.id then Pure.pure t.name else MonadExcept.throw _ :
    Declaring SlotName) s = _
  split <;> rfl

/-- The name that a key addresses is that of its argument, and a handle belongs to the schema from
then on. -/
theorem keyTagName_ensures (key : Key Tag) (given : List (List BindArg)) :
    (keyTagName key).Ensures fun f slot => slot.text = (BindArg.rows key given).name ∧
      ∀ t, key = .handle t → t.parent = f.id := by
  cases key with
  | name n => exact (subsectionName_ensures n).mono fun _ _ hslot => ⟨hslot, nofun⟩
  | handle t =>
      constructor
      · intro s s' a hs heq
        rw [keyTagName_handle] at heq
        split at heq <;> cases heq
        rename_i hparent
        refine ⟨hs, .refl _, fun hext => ⟨rfl, fun other hother => ?_⟩⟩
        cases hother
        rw [hext.id_eq]
        exact hparent
      · intro s s' e hs heq
        rw [keyTagName_handle] at heq
        split at heq <;> cases heq
        exact ⟨hs, .refl _⟩

end Declaring

end TrustedHtml
