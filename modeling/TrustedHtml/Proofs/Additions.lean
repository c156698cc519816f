import Mathlib.Data.List.Forall2
import TrustedHtml.Proofs.Identities
import TrustedHtml.Proofs.NamedBinding
import TrustedHtml.Proofs.Traversal

/-!
# Additional Variables

A schema can require a few variables more than another one, at any level of nesting, and
arguments can give strings for them in every row that has them. This module compares what the
two schemas hold after arguments have been bound that are addressed by name: what one of them
refuses the other refuses for the same reason, and else the two value sets have the same strings
and rows under all other names.

With no additions at all this says that schemas that require the same by name, in particular
schemas that are the same up to identities, are bound alike.

## Main definitions

* `Addition`: a string for a variable of its own, in the rows at the end of a path.
* `BindArg.extendAll`: arguments with additions in every row that has them.
* `Schema.Adds`, `ValueSet.Adds`: schemas and value sets that differ by additions.
* `Condition.Ignores`: a condition that does not notice additions.

## Main results

* `Schema.bind_adds`: **arguments are bound alike with and without additions.**
* `Schema.SameUpToIds.adds`: schemas that are the same up to identities differ by nothing.
-/

namespace TrustedHtml

/-! ### Additions -/

/-- A string for a variable of its own, in the rows at the end of a path of subsections. -/
structure Addition where
  path : List String
  name : SlotName
  value : SafeString
  /-- The level that is required of the variable. -/
  level : TrustLevel

namespace Addition

/-- The addition as it is seen from around a subsection. -/
def inside (sub : String) (a : Addition) : Addition :=
  { a with path := sub :: a.path }

/-- The additions to the rows of a subsection. -/
def under (sub : String) (additions : List Addition) : List Addition :=
  additions.filterMap fun a =>
    match a.path with
    | [] => none
    | first :: path => if first = sub then some { a with path } else none

/-- The arguments for additions that are not in rows. -/
def args (additions : List Addition) : List BindArg :=
  (additions.filter (·.path.isEmpty)).map fun a => .scalar (.name a.name.text) a.value .untrusted

/-- Additions to the rows of a subsection are those that lead into it. -/
theorem mem_under {sub : String} {additions : List Addition} {a : Addition} :
    a ∈ under sub additions ↔ a.inside sub ∈ additions := by
  rw [under, List.mem_filterMap]
  constructor
  · rintro ⟨b, hb, hsome⟩
    split at hsome
    · cases hsome
    · rename_i first path hpath
      split at hsome
      · rename_i hfirst
        cases hsome
        rw [hfirst] at hpath
        rwa [inside, ← hpath]
      · cases hsome
  · intro h
    refine ⟨_, h, ?_⟩
    rw [inside]
    simp

/-- Additions to the rows of a subsection have names of additions. -/
theorem names_under_sublist (sub : String) (additions : List Addition) :
    ((under sub additions).map (·.name)).Sublist (additions.map (·.name)) := by
  induction additions with
  | nil => exact .slnil
  | cons a rest ih =>
      rw [under, List.filterMap_cons]
      split
      · exact ih.cons _
      · rename_i b hb
        have hname : b.name = a.name := by
          split at hb
          · cases hb
          · split at hb <;> cases hb
            rfl
        rw [List.map_cons, List.map_cons, hname]
        exact ih.cons_cons _

end Addition

namespace BindArg

mutual

/-- An argument with additions in its rows. -/
def extend (additions : List Addition) : BindArg → BindArg
  | .scalar key value level => .scalar key value level
  | .rows key given =>
      .rows key (extendRows (Addition.under (BindArg.rows key given).name additions) given)

/-- Rows with additions in each of them. -/
def extendRows (additions : List Addition) : List (List BindArg) → List (List BindArg)
  | [] => []
  | row :: rest =>
      (Addition.args additions ++ extendEach additions row) :: extendRows additions rest

/-- Arguments with additions in their rows. -/
def extendEach (additions : List Addition) : List BindArg → List BindArg
  | [] => []
  | arg :: rest => extend additions arg :: extendEach additions rest

end

/-- **Arguments with additions**, in every row that has them. -/
def extendAll (additions : List Addition) (args : List BindArg) : List BindArg :=
  Addition.args additions ++ extendEach additions args

mutual

/-- Without additions an argument is as it was. -/
theorem extend_nil : ∀ arg : BindArg, arg.extend [] = arg
  | .scalar key value level => by rw [extend]
  | .rows key given => by
      rw [extend]
      exact congrArg (BindArg.rows key) (extendRows_nil given)

/-- Without additions rows are as they were. -/
theorem extendRows_nil : ∀ given : List (List BindArg), extendRows [] given = given
  | [] => by rw [extendRows]
  | row :: rest => by
      rw [extendRows, extendEach_nil row, extendRows_nil rest]
      rfl

/-- Without additions arguments are as they were. -/
theorem extendEach_nil : ∀ args : List BindArg, extendEach [] args = args
  | [] => by rw [extendEach]
  | arg :: rest => by rw [extendEach, extend_nil arg, extendEach_nil rest]

end

/-- Without additions arguments are as they were. -/
theorem extendAll_nil (args : List BindArg) : extendAll [] args = args := by
  rw [extendAll, extendEach_nil]
  rfl

/-- As many rows as before. -/
theorem length_extendRows (additions : List Addition) : ∀ given : List (List BindArg),
    (extendRows additions given).length = given.length
  | [] => by rw [extendRows]
  | row :: rest => by
      rw [extendRows, List.length_cons, List.length_cons, length_extendRows additions rest]

/-- An argument that is addressed by its name, which is none of `names` if it is for a
variable. -/
def IsNamed (names : List String) : BindArg → Prop
  | .scalar (.name n) _ _ => n ∉ names
  | .rows (.name _) _ => True
  | .scalar (.handle _) _ _ => False
  | .rows (.handle _) _ => False

end BindArg

/-! ### Schemas with additions -/

/-- **`s'` requires what `s` does, and beyond it the additions.** -/
structure Schema.Adds (additions : List Addition) (s s' : Schema) : Prop where
  inOrder : s.InOrder
  inOrder' : s'.InOrder
  strict : ∀ path, s.strictAt? path = s'.strictAt? path
  kept : ∀ {name path}, (∀ a ∈ additions, a.path = path → a.name.text ≠ name) →
    s.levelAt name path = s'.levelAt name path
  added : ∀ a ∈ additions, s'.levelAt a.name.text a.path = a.level

namespace Schema

variable {additions : List Addition} {s s' child : Schema}

/-- Schemas that are the same up to identities differ by nothing. -/
theorem SameUpToIds.adds (h : s.SameUpToIds s') (hs : s.InOrder) (hs' : s'.InOrder) :
    s.Adds [] s' where
  inOrder := hs
  inOrder' := hs'
  strict := h.strictAt?_eq
  kept _ := h.levelAt_eq _ _
  added _ hmem := absurd hmem List.not_mem_nil

namespace Adds

/-- One of the two has rows of a name if the other one has, and they differ by the additions to
them. -/
theorem rows (h : s.Adds additions s') (name : String) :
    (s.rows? name = none ∧ s'.rows? name = none) ∨
      ∃ child child', s.rows? name = some child ∧ s'.rows? name = some child' ∧
        child.Adds (Addition.under name additions) child' := by
  have hstrict := h.strict [name]
  rw [strictAt?, strictAt?] at hstrict
  cases hrows : s.rows? name with
  | none =>
      cases hrows' : s'.rows? name with
      | none => exact .inl ⟨rfl, rfl⟩
      | some child' =>
          rw [hrows, hrows'] at hstrict
          cases hstrict
  | some child =>
      cases hrows' : s'.rows? name with
      | none =>
          rw [hrows, hrows'] at hstrict
          cases hstrict
      | some child' =>
          refine .inr ⟨child, child', rfl, rfl, h.inOrder.rows hrows, h.inOrder'.rows hrows', ?_,
            ?_, ?_⟩
          · intro path
            rw [← strictAt?_cons hrows, ← strictAt?_cons hrows']
            exact h.strict (name :: path)
          · intro other path hother
            rw [← levelAt_cons hrows, ← levelAt_cons hrows']
            refine h.kept fun a ha hpath => hother { a with path } ?_ rfl
            rwa [Addition.mem_under, Addition.inside, ← hpath]
          · intro a ha
            rw [← levelAt_cons hrows']
            exact h.added _ (Addition.mem_under.mp ha)

/-- One of the two has a variable of a name that is not added if the other one has, and at the
same level. -/
theorem scalar (h : s.Adds additions s') {name : String}
    (hname : ∀ a ∈ additions, a.path = [] → a.name.text ≠ name) :
    (s.scalar? name = none ∧ s'.scalar? name = none) ∨
      ∃ v v', s.scalar? name = some v ∧ s'.scalar? name = some v' ∧ v.level = v'.level := by
  have hlevel : s.levelOf name = s'.levelOf name := h.kept hname
  cases hv : s.scalar? name with
  | none =>
      rw [levelOf_eq_bot_iff.mpr hv] at hlevel
      exact .inl ⟨rfl, levelOf_eq_bot_iff.mp hlevel.symm⟩
  | some v =>
      rw [levelOf_eq_coe_iff.mpr ⟨v, hv, rfl⟩] at hlevel
      obtain ⟨v', hv', hsame⟩ := levelOf_eq_coe_iff.mp hlevel.symm
      exact .inr ⟨v, v', rfl, hv', hsame.symm⟩

end Adds

end Schema

/-! ### Value sets with additions -/

/-- Results alike: the same error, or answers that are related. -/
inductive Except.Rel {ε α β : Type} (R : α → β → Prop) : Except ε α → Except ε β → Prop
  | ok {a : α} {b : β} (h : R a b) : Rel R (.ok a) (.ok b)
  | error (e : ε) : Rel R (.error e) (.error e)

/-- The two ways in which results can be alike. -/
theorem Except.rel_iff {ε α β : Type} {R : α → β → Prop} {x : Except ε α} {y : Except ε β} :
    Except.Rel R x y ↔
      (∃ e, x = .error e ∧ y = .error e) ∨ ∃ a b, x = .ok a ∧ y = .ok b ∧ R a b := by
  constructor
  · rintro (h | e)
    · exact .inr ⟨_, _, rfl, rfl, h⟩
    · exact .inl ⟨e, rfl, rfl⟩
  · rintro (⟨e, rfl, rfl⟩ | ⟨a, b, rfl, rfl, h⟩)
    · exact .error e
    · exact .ok h

/-- Operations on results alike have results alike. -/
theorem Except.Rel.bind {ε α β α' β' : Type} {R : α → β → Prop} {S : α' → β' → Prop}
    {x : Except ε α} {y : Except ε β} {k : α → Except ε α'} {k' : β → Except ε β'}
    (h : Except.Rel R x y) (hk : ∀ a b, x = .ok a → y = .ok b → R a b → Except.Rel S (k a) (k' b)) :
    Except.Rel S (x >>= k) (y >>= k') := by
  cases h with
  | ok h => exact hk _ _ rfl rfl h
  | error e => exact .error e

/-- A new value set has no rows. -/
theorem Schema.rowsNamed_valueSet (s : Schema) (name : String) :
    s.valueSet.rowsNamed name = [] := by
  rw [ValueSet.rowsNamed]
  split <;> rfl

variable [UrlReader]

/-- **`vs'` holds what `vs` does, and beyond it the additions**, each of them as its check
leaves it. -/
inductive ValueSet.Adds : List Addition → ValueSet → ValueSet → Prop
  | intro {additions : List Addition} {vs vs' : ValueSet}
      (schema : vs.schema.Adds additions vs'.schema)
      (kept : ∀ {name}, (∀ a ∈ additions, a.path = [] → a.name.text ≠ name) →
        vs.scalarByName name = vs'.scalarByName name)
      (added : ∀ a ∈ additions, a.path = [] → ∃ text, a.value.check a.level = .ok text ∧
        vs'.scalarByName a.name.text = some text)
      (count : ∀ name, (vs.rowsNamed name).length = (vs'.rowsNamed name).length)
      (rows : ∀ name, ∀ pair ∈ (vs.rowsNamed name).zip (vs'.rowsNamed name),
        Adds (Addition.under name additions) pair.1 pair.2) : Adds additions vs vs'

/-- A condition that does not notice additions under some names. -/
def Condition.Ignores (names : List String) (c : Condition) : Prop :=
  ∀ {additions : List Addition} {vs vs' : ValueSet}, (∀ a ∈ additions, a.name.text ∈ names) →
    vs.Adds additions vs' → c vs = c vs'

/-- Whether another variable is set does not depend on additions. -/
theorem Condition.isSet_ignores {names : List String} {name : String} (h : name ∉ names) :
    (isSet name).Ignores names := by
  rintro additions vs vs' hnames ⟨-, kept, -, -, -⟩
  have hkept : vs.scalarByName name = vs'.scalarByName name :=
    kept fun a ha _ heq => h (heq ▸ hnames a ha)
  rw [isSet, isSet, hkept]

/-- Whether another variable has a value does not depend on additions. -/
theorem Condition.hasValue_ignores {names : List String} {name : String} (h : name ∉ names)
    (value : String) : (hasValue name value).Ignores names := by
  rintro additions vs vs' hnames ⟨-, kept, -, -, -⟩
  have hkept : vs.scalarByName name = vs'.scalarByName name :=
    kept fun a ha _ heq => h (heq ▸ hnames a ha)
  rw [hasValue, hasValue, hkept]

/-- Additions that can be bound: they have names of their own, and pass their checks. -/
structure Addition.Ready (names : List String) (additions : List Addition) : Prop where
  named : ∀ a ∈ additions, a.name.text ∈ names
  distinct : (additions.map (·.name)).Nodup
  passes : ∀ a ∈ additions, ∃ text, a.value.check a.level = .ok text

namespace Addition

variable {names : List String} {additions : List Addition}

/-- No additions. -/
theorem Ready.nil : Ready names [] :=
  ⟨nofun, List.nodup_nil, nofun⟩

/-- Additions to the rows of a subsection can be bound too. -/
theorem Ready.under (h : Ready names additions) (sub : String) :
    Ready names (Addition.under sub additions) where
  named a ha := h.named (a.inside sub) (mem_under.mp ha)
  distinct := h.distinct.sublist (names_under_sublist sub additions)
  passes a ha := h.passes (a.inside sub) (mem_under.mp ha)

end Addition

namespace ValueSet.Adds

variable {names : List String} {additions : List Addition} {vs vs' ws ws' : ValueSet}

/-- What it takes, with the rows of each name side by side. -/
theorem of_rows (schema : vs.schema.Adds additions vs'.schema)
    (kept : ∀ {name}, (∀ a ∈ additions, a.path = [] → a.name.text ≠ name) →
      vs.scalarByName name = vs'.scalarByName name)
    (added : ∀ a ∈ additions, a.path = [] → ∃ text, a.value.check a.level = .ok text ∧
      vs'.scalarByName a.name.text = some text)
    (rows : ∀ name, List.Forall₂ (Adds (Addition.under name additions)) (vs.rowsNamed name)
      (vs'.rowsNamed name)) : vs.Adds additions vs' :=
  .intro schema kept added (fun name => (rows name).length_eq)
    fun name _ hpair => (List.forall₂_iff_zip.mp (rows name)).2 hpair

/-- The rows of each name, side by side. -/
theorem rowsNamed (h : vs.Adds additions vs') (name : String) :
    List.Forall₂ (Adds (Addition.under name additions)) (vs.rowsNamed name)
      (vs'.rowsNamed name) := by
  obtain ⟨-, -, -, count, rows⟩ := h
  exact List.forall₂_iff_zip.mpr ⟨count name, fun hpair => rows name _ hpair⟩

/-- The schemas. -/
theorem schema (h : vs.Adds additions vs') : vs.schema.Adds additions vs'.schema := by
  obtain ⟨schema, -, -, -, -⟩ := h
  exact schema

/-- Storing the same string under another name. -/
theorem stored (h : vs.Adds additions vs') {name text : String} (hws : vs.Stored name text ws)
    (hws' : vs'.Stored name text ws') (hname : ∀ a ∈ additions, a.name.text ≠ name) :
    ws.Adds additions ws' := by
  have hrows := h.rowsNamed
  obtain ⟨schema, kept, added, -, -⟩ := h
  refine of_rows ?_ ?_ ?_ ?_
  · rwa [hws.schema_eq, hws'.schema_eq]
  · intro other hother
    rw [hws.scalars, hws'.scalars, kept hother]
  · intro a ha hpath
    rw [hws'.scalars, if_neg (hname a ha)]
    exact added a ha hpath
  · intro other
    rw [hws.rows, hws'.rows]
    exact hrows other

/-- Storing rows that differ by the additions to them. -/
theorem storedRows (h : vs.Adds additions vs') {name : String} {bound bound' : List ValueSet}
    (hws : vs.StoredRows name bound ws) (hws' : vs'.StoredRows name bound' ws')
    (hbound : List.Forall₂ (Adds (Addition.under name additions)) bound bound') :
    ws.Adds additions ws' := by
  have hrows := h.rowsNamed
  obtain ⟨schema, kept, added, -, -⟩ := h
  refine of_rows ?_ ?_ ?_ ?_
  · rwa [hws.schema_eq, hws'.schema_eq]
  · intro other hother
    rw [hws.scalars, hws'.scalars, kept hother]
  · intro a ha hpath
    rw [hws'.scalars]
    exact added a ha hpath
  · intro other
    rw [hws.rows, hws'.rows]
    by_cases hother : other = name
    · subst hother
      rw [if_pos rfl, if_pos rfl]
      exact hbound
    · rw [if_neg hother, if_neg hother]
      exact hrows other

end ValueSet.Adds

/-! ### Binding -/

namespace Binding

variable {names : List String} {additions : List Addition} {s s' : Schema} {vs vs' : ValueSet}

/-- Arguments after others are applied if those could be. -/
theorem applyAll_append {args later : List BindArg} {mid : ValueSet}
    (h : applyAll vs args = (mid, none)) : applyAll vs (args ++ later) = applyAll mid later := by
  induction args generalizing vs with
  | nil =>
      rw [applyAll] at h
      cases h
      rfl
  | cons arg rest ih =>
      obtain ⟨first, hfirst, hrest⟩ := applyAll_cons_eq h
      rw [List.cons_append, applyAll, hfirst]
      exact ih hrest

/-- **Additions can be bound** to a schema that has them: each of them is stored under its name,
as its check leaves it, and nothing else changes. -/
theorem applyAll_additions (hwf : vs.schema.WellFormed)
    (hlevel : ∀ a ∈ additions, vs.schema.levelOf a.name.text = a.level)
    (hready : Addition.Ready names additions) :
    ∃ ws, applyAll vs (additions.map fun a =>
        .scalar (.name a.name.text) a.value .untrusted) = (ws, none) ∧
      ws.schema = vs.schema ∧
      (∀ a ∈ additions, ∃ text, a.value.check a.level = .ok text ∧
        ws.scalarByName a.name.text = some text) ∧
      (∀ name, (∀ a ∈ additions, a.name.text ≠ name) →
        ws.scalarByName name = vs.scalarByName name) ∧
      ∀ name, ws.rowsNamed name = vs.rowsNamed name := by
  induction additions generalizing vs with
  | nil => exact ⟨vs, rfl, rfl, nofun, fun _ _ => rfl, fun _ => rfl⟩
  | cons a rest ih =>
      obtain ⟨hnamed, hdistinct, hpasses⟩ := hready
      rw [List.forall_mem_cons] at hlevel hnamed hpasses
      rw [List.map_cons, List.nodup_cons] at hdistinct
      obtain ⟨v, hfind, hv⟩ := Schema.levelOf_eq_coe_iff.mp hlevel.1
      obtain ⟨text, hcheck⟩ := hpasses.1
      have hrequired : v.level ⊔ .untrusted = a.level := hv ▸ TrustLevel.join_untrusted _
      rw [← hrequired] at hcheck
      obtain ⟨mid, hset, hstored⟩ := ValueSet.setScalarRequiring_named hwf hfind hcheck
      rw [hrequired] at hcheck
      have happly : applyArg vs (.scalar (.name a.name.text) a.value .untrusted) = .ok mid := by
        rw [applyArg, resolveVar?, hfind]
        exact hset
      obtain ⟨ws, hrest, hschema, hadded, hkept, hrows⟩ := ih (hstored.schema_eq ▸ hwf)
        (hstored.schema_eq ▸ hlevel.2) ⟨hnamed.2, hdistinct.2, hpasses.2⟩
      have hother : ∀ b ∈ rest, b.name.text ≠ a.name.text := fun b hb hsame =>
        hdistinct.1 (List.mem_map.mpr ⟨b, hb, SlotName.text_inj.mp hsame⟩)
      refine ⟨ws, ?_, hschema.trans hstored.schema_eq, ?_, ?_, ?_⟩
      · rw [List.map_cons, applyAll, happly]
        exact hrest
      · rw [List.forall_mem_cons]
        refine ⟨⟨text, hcheck, ?_⟩, hadded⟩
        rw [hkept _ hother, hstored.scalars, if_pos rfl]
      · intro name hname
        rw [List.forall_mem_cons] at hname
        rw [hkept name hname.2, hstored.scalars, if_neg (Ne.symm hname.1)]
      · intro name
        rw [hrows, hstored.rows]

/-- After its additions have been bound, a new value set differs by them from one without. -/
theorem applyAll_args (h : s.Adds additions s') (hready : Addition.Ready names additions) :
    ∃ ws, applyAll s'.valueSet (Addition.args additions) = (ws, none) ∧
      s.valueSet.Adds additions ws := by
  have htop : ∀ {a}, a ∈ additions.filter (·.path.isEmpty) ↔ a ∈ additions ∧ a.path = [] := by
    intro a
    rw [List.mem_filter, List.isEmpty_iff]
  have hlevel : ∀ a ∈ additions.filter (·.path.isEmpty),
      s'.levelOf a.name.text = a.level := by
    intro a ha
    obtain ⟨hmem, hpath⟩ := htop.mp ha
    have hadded := h.added a hmem
    rwa [hpath] at hadded
  obtain ⟨ws, happly, hschema, hadded, hkept, hrows⟩ :=
    @applyAll_additions _ names _ s'.valueSet h.inOrder'.wellFormed hlevel
      ⟨fun a ha => hready.named a (htop.mp ha).1,
        hready.distinct.sublist (List.filter_sublist.map _),
        fun a ha => hready.passes a (htop.mp ha).1⟩
  refine ⟨ws, happly, .of_rows (hschema ▸ h) ?_ ?_ ?_⟩
  · intro name hname
    rw [hkept name fun a ha => hname a (htop.mp ha).1 (htop.mp ha).2]
    obtain ⟨hv, hv'⟩ | ⟨v, v', hv, hv', -⟩ := h.scalar hname
    · rw [ValueSet.scalarByName, ValueSet.scalarByName, Schema.valueSet, Schema.valueSet, hv, hv']
      rfl
    · rw [ValueSet.scalarByName, ValueSet.scalarByName, Schema.valueSet, Schema.valueSet, hv, hv']
      rfl
  · intro a ha hpath
    exact hadded a (htop.mpr ⟨ha, hpath⟩)
  · intro name
    rw [hrows, Schema.rowsNamed_valueSet, Schema.rowsNamed_valueSet]
    exact .nil

/-- A name that neither of two schemas has is treated alike by both. -/
theorem undeclared_rel (h : vs.Adds additions vs') (kind : SlotKind) (name : String) :
    Except.Rel (ValueSet.Adds additions) (undeclared vs kind name) (undeclared vs' kind name) := by
  have hstrict : vs.schema.strict = vs'.schema.strict := Option.some.inj (h.schema.strict [])
  rw [undeclared, undeclared, hstrict]
  split
  · exact .error _
  · exact .ok h

/-- A string under another name is stored alike. -/
theorem applyArg_scalar_rel (h : vs.Adds additions vs') {name : String}
    (hname : ∀ a ∈ additions, a.name.text ≠ name) (value : SafeString) (level : TrustLevel) :
    Except.Rel (ValueSet.Adds additions) (applyArg vs (.scalar (.name name) value level))
      (applyArg vs' (.scalar (.name name) value level)) := by
  rw [applyArg, applyArg, resolveVar?, resolveVar?]
  have hwf := h.schema.inOrder.wellFormed
  have hwf' := h.schema.inOrder'.wellFormed
  obtain ⟨hv, hv'⟩ | ⟨v, v', hv, hv', hlevel⟩ := h.schema.scalar fun a ha _ => hname a ha
  · rw [hv, hv']
    exact undeclared_rel h .var name
  · rw [hv, hv']
    dsimp only
    cases hcheck : value.check (v.level ⊔ level) with
    | error e =>
        rw [ValueSet.setScalarRequiring_of_find hwf hv,
          ValueSet.setScalarRequiring_of_find hwf' hv', ← hlevel, hcheck]
        exact .error _
    | ok text =>
        obtain ⟨ws, hset, hws⟩ := ValueSet.setScalarRequiring_named hwf hv hcheck
        obtain ⟨ws', hset', hws'⟩ := ValueSet.setScalarRequiring_named hwf' hv' (hlevel ▸ hcheck)
        rw [hset, hset']
        exact .ok (h.stored hws hws' hname)

mutual

/-- **An argument is bound alike** with and without additions in its rows. -/
theorem applyArg_rel {names : List String} {additions : List Addition}
    (hready : Addition.Ready names additions) {vs vs' : ValueSet} (h : vs.Adds additions vs') :
    ∀ arg : BindArg, arg.Everywhere (BindArg.IsNamed names) →
      Except.Rel (ValueSet.Adds additions) (applyArg vs arg) (applyArg vs' (arg.extend additions))
  | .scalar (.handle v) value level, harg => by
      rw [BindArg.Everywhere] at harg
      cases harg
  | .scalar (.name name) value level, harg => by
      rw [BindArg.Everywhere] at harg
      rw [BindArg.extend]
      have hname : ∀ a ∈ additions, a.name.text ≠ name :=
        fun a ha heq => harg (heq ▸ hready.named a ha)
      exact applyArg_scalar_rel h hname value level
  | .rows (.handle t) given, harg => by
      rw [BindArg.Everywhere] at harg
      cases harg.1
  | .rows (.name name) given, harg => by
      rw [BindArg.Everywhere] at harg
      rw [BindArg.extend, BindArg.name]
      obtain ⟨hrows, hrows'⟩ | ⟨child, child', hrows, hrows', hchild⟩ := h.schema.rows name
      · rw [applyArg, applyArg, resolveTag?, resolveTag?, Schema.subsection?_eq_none hrows,
          Schema.subsection?_eq_none hrows']
        exact undeclared_rel h .subsection name
      · obtain ⟨t, hfind, happly⟩ := applyArg_rows h.schema.inOrder hrows given
        obtain ⟨t', hfind', happly'⟩ := applyArg_rows h.schema.inOrder' hrows'
          (BindArg.extendRows (Addition.under name additions) given)
        rw [happly, happly', BindArg.length_extendRows]
        have hbound := applyRows_rel (hready.under name) hchild name 1 given.length given harg.2
        refine hbound.bind fun bound bound' hok hok' hrel => ?_
        obtain ⟨ws, hset, hws⟩ := ValueSet.setRows_named h.schema.inOrder hrows hfind
          (schema_eq_of_applyRows hok)
        obtain ⟨ws', hset', hws'⟩ := ValueSet.setRows_named h.schema.inOrder' hrows' hfind'
          (schema_eq_of_applyRows hok')
        rw [hset, hset']
        exact .ok (h.storedRows hws hws' hrel)

/-- Rows are bound alike with and without additions. -/
theorem applyRows_rel {names : List String} {additions : List Addition}
    (hready : Addition.Ready names additions) {s s' : Schema} (h : s.Adds additions s')
    (name : String) (number count : ℕ) :
    ∀ given : List (List BindArg), BindArg.RowsEverywhere (BindArg.IsNamed names) given →
      Except.Rel (List.Forall₂ (ValueSet.Adds additions)) (applyRows s name number count given)
        (applyRows s' name number count (BindArg.extendRows additions given))
  | [], _ => .ok .nil
  | row :: rest, hgiven => by
      rw [BindArg.RowsEverywhere] at hgiven
      rw [BindArg.extendRows, applyRows, applyRows]
      obtain ⟨mid, hmid, hstart⟩ := applyAll_args h hready
      rw [applyAll_append hmid]
      have hrest := applyRows_rel hready h name (number + 1) count rest hgiven.2
      obtain ⟨ws, ws', e, hrow, hrow'⟩ | ⟨ws, ws', hrow, hrow', hadds⟩ :=
        applyEach_rel hready hstart row hgiven.1
      · rw [hrow, hrow']
        exact .error _
      · rw [hrow, hrow']
        exact hrest.bind fun _ _ _ _ hlater => .ok (.cons hadds hlater)

/-- Arguments are bound alike with and without additions in their rows. -/
theorem applyEach_rel {names : List String} {additions : List Addition}
    (hready : Addition.Ready names additions) {vs vs' : ValueSet} (h : vs.Adds additions vs') :
    ∀ args : List BindArg, BindArg.AllEverywhere (BindArg.IsNamed names) args →
      (∃ ws ws' e, applyAll vs args = (ws, some e) ∧
        applyAll vs' (BindArg.extendEach additions args) = (ws', some e)) ∨
      ∃ ws ws', applyAll vs args = (ws, none) ∧
        applyAll vs' (BindArg.extendEach additions args) = (ws', none) ∧ ws.Adds additions ws'
  | [], _ => .inr ⟨vs, vs', rfl, rfl, h⟩
  | arg :: rest, hargs => by
      rw [BindArg.AllEverywhere] at hargs
      have hfirst := applyArg_rel hready h arg hargs.1
      rw [BindArg.extendEach, applyAll, applyAll]
      generalize applyArg vs arg = result, applyArg vs' (arg.extend additions) = result' at hfirst
      cases hfirst with
      | ok hmid => exact applyEach_rel hready hmid rest hargs.2
      | error e => exact .inl ⟨vs, vs', e, rfl, rfl⟩

end

end Binding

/-- **Arguments are bound alike with and without additions.** A schema that requires a few
variables more than another one refuses arguments that give strings for them as the other one
refuses the arguments without them, for the same reason, and else holds the same under all other
names. -/
theorem Schema.bind_adds {names : List String} {additions : List Addition} {s s' : Schema}
    (h : s.Adds additions s') (hready : Addition.Ready names additions) {args : List BindArg}
    (hargs : BindArg.AllEverywhere (BindArg.IsNamed names) args) :
    Except.Rel (ValueSet.Adds additions) (s.bind args)
      (s'.bind (BindArg.extendAll additions args)) := by
  obtain ⟨mid, hmid, hstart⟩ := Binding.applyAll_args h hready
  rw [bind, bind, ValueSet.bindInto, ValueSet.bindInto, BindArg.extendAll,
    Binding.applyAll_append hmid]
  obtain ⟨ws, ws', e, hrun, hrun'⟩ | ⟨ws, ws', hrun, hrun', hadds⟩ :=
    Binding.applyEach_rel hready hstart args hargs
  · rw [hrun, hrun']
    exact .error e
  · rw [hrun, hrun']
    exact .ok hadds

end TrustedHtml
