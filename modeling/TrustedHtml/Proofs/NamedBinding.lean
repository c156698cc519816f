import TrustedHtml.Proofs.Page
import TrustedHtml.Proofs.Requirements

/-!
# Binding by Name

A value set for a schema in order can always be given a string or rows under a name that the
schema has: there is a place, and it belongs to the schema. So what can fail is a check, and
what changes is what is read under that name. Places and handles do not occur in these facts;
they are what a comparison of two value sets needs whose schemas have the same names at other
places.

## Main definitions

* `Schema.InOrder`: a schema that is well-formed and linked.
* `ValueSet.stored`, `ValueSet.storedStream`: values with a string or a source of rows at a place.
* `ValueSet.Stored`, `ValueSet.StoredRows`: one value set is another one with a string or rows.

## Main results

* `ValueSet.setScalarRequiring_named`, `ValueSet.setRows_named`: **storing under a name
  succeeds.**
-/

namespace TrustedHtml

/-- **A schema in order**: what its handles tell is true, at every level of nesting. -/
structure Schema.InOrder (s : Schema) : Prop where
  wellFormed : s.WellFormed
  linked : s.Linked

namespace Schema

variable {s child : Schema}

/-- The schemas of the rows of a schema in order are in order. -/
theorem InOrder.rows (h : s.InOrder) {name : String} (hrows : s.rows? name = some child) :
    child.InOrder := by
  obtain ⟨sub, hmem, -, rfl⟩ := exists_mem_of_rows?_eq hrows
  obtain ⟨hwf, ⟨-, hchildren⟩⟩ := h
  exact ⟨hwf.child hmem, hchildren sub hmem⟩

/-- A new schema is in order. -/
theorem inOrder_of_empty (hs : s.scalars = []) (hsub : s.subsections = []) : s.InOrder :=
  ⟨wellFormed_of_empty hs hsub, linked_of_empty hsub⟩

/-- A schema is in order whether it is strict or not. -/
theorem InOrder.setStrict (h : s.InOrder) (strict : Bool) : (s.setStrict strict).InOrder := by
  obtain ⟨hwf, ⟨hids, hchildren⟩⟩ := h
  exact ⟨setStrict_wellFormed hwf strict, .intro hids hchildren⟩

/-- The subsection of a name leads to the schema of its rows. -/
theorem InOrder.subsection?_eq (h : s.InOrder) {name : String} (hrows : s.rows? name = some child) :
    ∃ t, s.subsection? name = some t ∧ s.subsections[t.index]? = some (t, child) ∧
      t.name.text = name ∧ t.child = child.id ∧ t.parent = s.id ∧ s.child t = .ok child := by
  obtain ⟨⟨hcoherent, -⟩, ⟨hids, -⟩⟩ := h
  rw [rows?, Option.map_eq_some_iff] at hrows
  obtain ⟨⟨t, child⟩, hfind, rfl⟩ := hrows
  have hmem := List.mem_of_find?_eq_some hfind
  obtain ⟨hsub, hparent⟩ := hcoherent.tag_of_mem hmem
  have hname := List.find?_some hfind
  refine ⟨t, by rw [subsection?, hfind]; rfl, hsub, beq_iff_eq.mp hname, hids _ hmem, hparent, ?_⟩
  rw [Schema.child, checkTag, if_pos hparent, hsub]
  rfl

/-- The handle of a subsection leads to the schema of its rows as its name does. -/
theorem InOrder.child_eq (h : s.InOrder) {name : String} {t : Tag}
    (hrows : s.rows? name = some child) (hfind : s.subsection? name = some t) :
    s.child t = .ok child := by
  obtain ⟨t', hfind', -, -, -, -, hchild⟩ := h.subsection?_eq hrows
  rwa [Option.some.inj (hfind.symm.trans hfind')]

/-- The name of a subsection leads to the schema of its rows. -/
theorem WellFormed.rows?_eq (h : s.WellFormed) {t : Tag}
    (hsub : s.subsections[t.index]? = some (t, child)) : s.rows? t.name.text = some child := by
  have hfind := (@Coherent.find_subsection_eq_some_iff s h.coherent (t, child) t.name).mpr
    ⟨hsub, rfl⟩
  rw [rows?, hfind]
  rfl

/-- There is no subsection of a name without a schema for its rows. -/
theorem subsection?_eq_none {name : String} (hrows : s.rows? name = none) :
    s.subsection? name = none := by
  rw [rows?, Option.map_eq_none_iff] at hrows
  rw [subsection?, hrows]
  rfl

end Schema

/-- Declarations keep a schema in order. -/
theorem Scope.useAll_inOrder {s : Scope} (h : s.schema.InOrder) (uses : List Use) :
    (s.useAll uses).schema.InOrder :=
  ⟨(useAll_wellFormed h.wellFormed uses).1, useAll_linked h.wellFormed h.linked uses⟩

namespace ValueSet

/-- `ws` is `vs` with a string under a name. -/
structure Stored (vs : ValueSet) (name text : String) (ws : ValueSet) : Prop where
  schema_eq : ws.schema = vs.schema
  scalars : ∀ other, ws.scalarByName other =
    if other = name then some text else vs.scalarByName other
  rows : ∀ other, ws.rowsNamed other = vs.rowsNamed other

/-- `ws` is `vs` with rows under a name. -/
structure StoredRows (vs : ValueSet) (name : String) (rows : List ValueSet) (ws : ValueSet) :
    Prop where
  schema_eq : ws.schema = vs.schema
  scalars : ∀ other, ws.scalarByName other = vs.scalarByName other
  rows : ∀ other, ws.rowsNamed other = if other = name then rows else vs.rowsNamed other

/-- There is a place to put something at, if the index is one of those to be provided. -/
theorem put_provide {α : Type} {index count : ℕ} (h : index < count) (a default : α)
    (places : List α) :
    put index a (provide index count default places) =
      .ok ((provide index count default places).set index a) := by
  have hlt : index < (provide index count default places).length := by
    rw [provide]
    split
    · rw [List.length_append, List.length_replicate]
      omega
    · omega
  rw [put, if_pos hlt]

/-- Values with a string at a place. -/
def stored (vs : ValueSet) (index : ℕ) (text : String) : ValueSet :=
  { vs with values := (provide index vs.schema.scalars.length "" vs.values).set index text }

/-- Values with a source of rows at a place. -/
def storedStream (vs : ValueSet) (index : ℕ) (stream : RowStream ValueSet) : ValueSet :=
  { vs with
    streams := (provide index vs.schema.subsections.length none vs.streams).set index stream }

variable {vs : ValueSet}

/-- A string can be stored at every place of the schema. -/
theorem store_eq_stored {v : Var} (h : v.index < vs.schema.scalars.length) (text : String) :
    vs.store v text = .ok (vs.stored v.index text) := by
  rw [store, put_provide h]
  rfl

/-- A source of rows can be set at every place of the schema. -/
theorem setStream_eq_stored {t : Tag} (hparent : t.parent = vs.schema.id)
    (h : t.index < vs.schema.subsections.length) (stream : RowStream ValueSet) :
    vs.setStream t stream = .ok (vs.storedStream t.index stream) := by
  rw [setStream, Schema.checkTag, if_pos hparent]
  simp only [bind, Except.bind, put_provide h]
  rfl

/-- Rows that carry the identity that a handle tells are set as a source that does not fail. -/
theorem setRows_eq_setStream {t : Tag} {rows : List ValueSet}
    (h : ∀ row ∈ rows, row.schema.id = t.child) :
    vs.setRows t rows = vs.setStream t (.ofRows rows) := by
  have hnone : (rows.find? fun row => row.schema.id ≠ t.child) = none := by
    rw [List.find?_eq_none]
    intro row hrow
    rw [h row hrow]
    simp
  rw [setRows, hnone]

/-- **A string can be stored** for every variable of the schema, under its name. -/
theorem exists_store (h : vs.schema.WellFormed) {name : String} {v : Var}
    (hfind : vs.schema.scalar? name = some v) (text : String) :
    ∃ ws, vs.store v text = .ok ws ∧ vs.Stored name text ws := by
  obtain rfl := Schema.text_eq_of_scalar?_eq hfind
  obtain ⟨hv, -⟩ := h.coherent.scalar?_eq_some_iff.mp hfind
  have hstore := store_eq_stored (List.getElem?_eq_some_iff.mp hv).1 text
  obtain ⟨hschema, hstreams, hvalues⟩ := store_eq_ok hstore
  refine ⟨_, hstore, hschema, fun other => ?_, fun other => ?_⟩
  · rw [scalarByName, scalarByName, hschema]
    by_cases hother : other = v.name.text
    · subst hother
      rw [if_pos rfl, hfind, Option.map_some, hvalues, if_pos rfl]
    · rw [if_neg hother]
      cases hslot : vs.schema.scalar? other with
      | none => rfl
      | some slot =>
          obtain rfl := Schema.text_eq_of_scalar?_eq hslot
          obtain ⟨hslot', -⟩ := h.coherent.scalar?_eq_some_iff.mp hslot
          -- variables of different names stand at different places
          have hne : v.index ≠ slot.index := by
            intro hsame
            rw [← hsame, hv] at hslot'
            rw [Option.some.inj hslot'] at hother
            exact hother rfl
          rw [Option.map_some, Option.map_some, hvalues, if_neg hne]
  · rfl

/-- Rows whose schemas are that of a subsection can be stored for it. -/
theorem setRows_named (h : vs.schema.InOrder) {name : String} {child : Schema} {t : Tag}
    (hrows : vs.schema.rows? name = some child) (hfind : vs.schema.subsection? name = some t)
    {rows : List ValueSet} (hschema : ∀ row ∈ rows, row.schema = child) :
    ∃ ws, vs.setRows t rows = .ok ws ∧ vs.StoredRows name rows ws := by
  obtain ⟨t', hfind', hsub, rfl, hchild, hparent, -⟩ := h.subsection?_eq hrows
  obtain rfl : t' = t := Option.some.inj (hfind'.symm.trans hfind)
  have hset : vs.setRows t' rows = .ok (vs.storedStream t'.index (.ofRows rows)) := by
    rw [setRows_eq_setStream fun row hrow => by rw [hschema row hrow, hchild]]
    exact setStream_eq_stored hparent (List.getElem?_eq_some_iff.mp hsub).1 _
  obtain ⟨hschema', hvalues, hstreams⟩ := setRows_eq_ok hset
  refine ⟨_, hset, hschema', fun other => rfl, fun other => ?_⟩
  rw [rowsNamed, rowsNamed, hschema']
  by_cases hother : other = t'.name.text
  · subst hother
    rw [if_pos rfl, hfind]
    dsimp only
    rw [hstreams, if_pos rfl]
    rfl
  · rw [if_neg hother]
    cases hslot : vs.schema.subsection? other with
    | none => rfl
    | some slot =>
        obtain ⟨d, hd, hname⟩ := h.wellFormed.of_subsection?_eq hslot
        -- subsections of different names stand at different places
        have hne : t'.index ≠ slot.index := by
          intro hsame
          rw [← hsame, hsub] at hd
          cases Option.some.inj hd
          exact hother hname.symm
        dsimp only
        rw [hstreams, if_neg hne]

variable [UrlReader]

/-- What storing a string under a name comes down to is its check. -/
theorem setScalarRequiring_of_find (h : vs.schema.WellFormed) {name : String} {v : Var}
    (hfind : vs.schema.scalar? name = some v) (value : SafeString) (extra : TrustLevel) :
    vs.setScalarRequiring v value extra =
      match value.check (v.level ⊔ extra) with
      | .ok text => (vs.store v text).mapError .misuse
      | .error source => .error (.ofCause (.bind (.trust name source))) := by
  obtain rfl := Schema.text_eq_of_scalar?_eq hfind
  obtain ⟨hv, -⟩ := h.coherent.scalar?_eq_some_iff.mp hfind
  rw [setScalarRequiring, Schema.checkVar_eq_ok (h.coherent.var_at hv).2, Schema.slotLevel, hv]
  rfl

/-- **A string that passes its check is stored**, under any name that the schema has. -/
theorem setScalarRequiring_named (h : vs.schema.WellFormed) {name : String} {v : Var}
    (hfind : vs.schema.scalar? name = some v) {value : SafeString} {extra : TrustLevel}
    {text : String} (hcheck : value.check (v.level ⊔ extra) = .ok text) :
    ∃ ws, vs.setScalarRequiring v value extra = .ok ws ∧ vs.Stored name text ws := by
  obtain ⟨ws, hstore, hstored⟩ := exists_store h hfind text
  refine ⟨ws, ?_, hstored⟩
  rw [setScalarRequiring_of_find h hfind, hcheck]
  dsimp only
  rw [hstore]
  rfl

end ValueSet

/-- Rows under a name that a schema has are bound to the schema of the subsection. -/
theorem Binding.applyArg_rows [UrlReader] {vs : ValueSet} {name : String} {child : Schema}
    (h : vs.schema.InOrder) (hrows : vs.schema.rows? name = some child)
    (given : List (List BindArg)) :
    ∃ t, vs.schema.subsection? name = some t ∧ applyArg vs (.rows (.name name) given) = (do
      let bound ← applyRows child name 1 given.length given
      (vs.setRows t bound).mapError .misuse) := by
  obtain ⟨t, hfind, -, rfl, -, -, hchild⟩ := h.subsection?_eq hrows
  refine ⟨t, hfind, ?_⟩
  rw [applyArg, resolveTag?, hfind]
  simp only [bind, Except.bind, hchild, Except.mapError]

end TrustedHtml
