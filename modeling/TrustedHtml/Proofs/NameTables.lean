import Mathlib.Data.List.Induction
import TrustedHtml.Proofs.Session
import TrustedHtml.Schema.Indexed

/-!
# Tables of Names

A schema can keep tables of its names beside its lists. A name is then looked up in a table only,
which is right as long as the table has the names of the list, each with its place, and nothing
else. No operation checks that: a table that is wrong leads to another variable, or to a place that
does not exist.

As the names are different there is just one such table for each list, and so there is one schema
with tables for every schema that is in order. The operations keep to it. Carried out with tables,
each gives what it gives without them, and leaves the schema with tables of what is left without
them. So whatever a program does can be done with tables, and they agree with the lists at every
level.

## Main definitions

* `nameTable`: the table of a list of names.
* `Schema.indexed`: the schema with its tables.
* `Schema.IndexedBy`: tables agree with the lists.
* `IndexedScope.use`, `IndexedScope.useAll`: declarations, with tables.
* `Edits`, `Built`: the same is done with tables and without.

## Main results

* `Schema.declare_indexed`, `Scope.declareSubsection_indexed`: **declaring with tables.**
* `SchemaCall.run_edits`, `Node.compile_edits`: **one step of a program.**
* `Session.Reached.built`: **the tables of a schema come about as the schema does.**
* `Session.Reached.indexedBy`: **they agree with its lists, after any steps.**
-/

namespace TrustedHtml

/-! ### The table of a list of names -/

/-- **The table of a list of names**: each name with its place. -/
def nameTable (names : List String) : NameTable :=
  names.zipIdx.foldl (fun table entry => table.enter entry.1 entry.2) .empty

/-- A name is entered with the place behind the others. -/
theorem nameTable_concat (names : List String) (name : String) :
    nameTable (names ++ [name]) = (nameTable names).enter name names.length := by
  simp [nameTable, List.zipIdx_append, List.foldl_append]

/-- **The table leads from each name to its place**, if the names are different. -/
theorem find?_nameTable {names : List String} (h : names.Nodup) {name : String} {i : ℕ} :
    (nameTable names).find? name = some i ↔ names[i]? = some name := by
  induction names using List.reverseRecOn generalizing i with
  | nil => simp [nameTable]
  | append_singleton names last ih =>
      obtain ⟨hnodup, -, hlast⟩ := List.nodup_append.mp h
      have hnew : last ∉ names := fun hmem => hlast last hmem last List.mem_cons_self rfl
      rw [nameTable_concat, NameTable.find?_enter]
      by_cases hname : last = name
      · subst hname
        have hold : names[i]? ≠ some last := fun hi => hnew (List.mem_of_getElem? hi)
        simp only [if_true, Option.some_inj, List.getElem?_append]
        split_ifs with hlt
        · simp only [hold, iff_false]
          omega
        · rw [List.getElem?_singleton]
          split_ifs with hzero
          · simp only [iff_true]
            omega
          · simp only [iff_false]
            omega
      · rw [if_neg hname, ih hnodup, List.getElem?_append]
        split_ifs with hlt
        · rfl
        · rw [List.getElem?_eq_none (by omega), List.getElem?_singleton]
          split_ifs <;> simp [hname]

/-- Entries of different names have different texts for names. -/
theorem nodup_texts {α : Type} {key : α → SlotName} {entries : List α}
    (h : (entries.map key).Nodup) : (entries.map fun a => (key a).text).Nodup := by
  have htexts := h.map fun a b => SlotName.text_inj.mp
  rwa [List.map_map] at htexts

/-- The table has the names of all entries, each with its place. -/
theorem find?_nameTable_map {α : Type} (key : α → SlotName) {entries : List α}
    (h : (entries.map key).Nodup) {name : String} {i : ℕ} :
    (nameTable (entries.map fun a => (key a).text)).find? name = some i ↔
      ∃ a, entries[i]? = some a ∧ (key a).text = name := by
  rw [find?_nameTable (nodup_texts h), List.getElem?_map, Option.map_eq_some_iff]

/-- The table leads to what a search finds, if everything stands at its place. -/
theorem find?_nameTable_eq_find? {α : Type} (key : α → SlotName) {place : α → ℕ}
    {entries : List α} (h : (entries.map key).Nodup)
    (hplace : ∀ {i : ℕ} {a : α}, entries[i]? = some a → place a = i) (name : String) :
    (nameTable (entries.map fun a => (key a).text)).find? name =
      (entries.find? fun a => (key a).text == name).map place := by
  cases hfind : entries.find? fun a => (key a).text == name with
  | none =>
      rw [Option.map_none, Option.eq_none_iff_forall_ne_some]
      intro i hi
      obtain ⟨a, ha, hname⟩ := (find?_nameTable_map key h).mp hi
      have hne := List.find?_eq_none.mp hfind a (List.mem_of_getElem? ha)
      simp [hname] at hne
  | some a =>
      obtain ⟨i, hi⟩ := List.getElem?_of_mem (List.mem_of_find?_eq_some hfind)
      have hname := List.find?_some hfind
      rw [beq_iff_eq] at hname
      rw [Option.map_some, hplace hi]
      exact (find?_nameTable_map key h).mpr ⟨a, hi, hname⟩

/-! ### Schemas with their tables -/

namespace Schema

mutual

/-- **The schema with its tables**, at every level of nesting. -/
def indexed : Schema → IndexedSchema
  | ⟨id, strict, nesting, scalars, subsections⟩ =>
    ⟨id, strict, nesting, scalars, nameTable (scalars.map (·.name.text)), indexedRows subsections,
      nameTable (subsections.map (·.1.name.text))⟩

/-- The subsections, with the tables of the schemas of their rows. -/
def indexedRows : List (Tag × Schema) → List (Tag × IndexedSchema)
  | [] => []
  | (t, child) :: rest => (t, indexed child) :: indexedRows rest

end

variable {s : Schema}

/-- The schemas of rows have their tables each. -/
theorem indexedRows_eq_map : ∀ subsections : List (Tag × Schema),
    indexedRows subsections = subsections.map fun sub => (sub.1, sub.2.indexed)
  | [] => rfl
  | sub :: rest => congrArg ((sub.1, sub.2.indexed) :: ·) (indexedRows_eq_map rest)

/-- What a schema with its tables consists of. -/
theorem indexed_eq (s : Schema) : s.indexed =
    ⟨s.id, s.strict, s.nesting, s.scalars, nameTable (s.scalars.map (·.name.text)),
      s.subsections.map fun sub => (sub.1, sub.2.indexed),
      nameTable (s.subsections.map (·.1.name.text))⟩ := by
  cases s
  rw [indexed, indexedRows_eq_map]

/-- A new schema, with its tables. -/
theorem indexed_empty (id : SchemaId) (nesting : Option Nesting) :
    indexed ⟨id, false, nesting, [], []⟩ = .empty id nesting := rfl

/-- The table of variables leads to the places of variables. -/
theorem Coherent.find?_scalarsByName (h : s.Coherent) (name : String) :
    s.indexed.scalarsByName.find? name = (s.scalar? name).map (·.index) := by
  rw [indexed_eq]
  exact find?_nameTable_eq_find? Var.name h.var_names (fun hv => (h.var_at hv).1) name

/-- The table of subsections leads to the places of subsections. -/
theorem Coherent.find?_subsectionsByName (h : s.Coherent) (name : String) :
    s.indexed.subsectionsByName.find? name =
      (s.subsections.find? fun sub => sub.1.name.text == name).map (·.1.index) := by
  rw [indexed_eq]
  exact find?_nameTable_eq_find? (fun sub : Tag × Schema => sub.1.name) h.tag_names
    (fun hsub => (h.tag_at hsub).1) name

/-- The subsection at a place, with the tables of the schema of its rows. -/
theorem getElem?_indexed {i : ℕ} {sub : Tag × Schema} (h : s.subsections[i]? = some sub) :
    s.indexed.subsections[i]? = some (sub.1, sub.2.indexed) := by
  rw [indexed_eq, List.getElem?_map, h, Option.map_some]

/-- The entry at a place that there is. -/
theorem entry_eq_ok {α : Type} {entries : List α} {i : ℕ} {a : α} (h : entries[i]? = some a) :
    IndexedSchema.entry entries i = .ok a := by
  rw [IndexedSchema.entry, h]

/-- **A variable is found by its name.** -/
theorem scalar?_indexed (h : s.Coherent) (name : String) :
    s.indexed.scalar? name = .ok (s.scalar? name) := by
  rw [IndexedSchema.scalar?, h.find?_scalarsByName]
  cases hfind : s.scalar? name with
  | none => rfl
  | some v =>
      have hat := (h.var_of_mem (List.mem_of_find?_eq_some hfind)).1
      rw [indexed_eq]
      simp [entry_eq_ok hat]

/-- **A subsection is found by its name.** -/
theorem subsection?_indexed (h : s.Coherent) (name : String) :
    s.indexed.subsection? name = .ok (s.subsection? name) := by
  rw [IndexedSchema.subsection?, h.find?_subsectionsByName, subsection?]
  cases hfind : s.subsections.find? fun sub => sub.1.name.text == name with
  | none => rfl
  | some sub =>
      have hat := (h.tag_of_mem (List.mem_of_find?_eq_some hfind)).1
      simp [entry_eq_ok (getElem?_indexed hat)]

/-- **Tables that agree with the lists of a schema**: they have its names, each with its place, and
no other names, so what is found through them is what the schema has. -/
structure IndexedBy (s : Schema) (i : IndexedSchema) : Prop where
  vars : ∀ (name : String) (index : ℕ), i.scalarsByName.find? name = some index ↔
    ∃ v, s.scalars[index]? = some v ∧ v.name.text = name
  tags : ∀ (name : String) (index : ℕ), i.subsectionsByName.find? name = some index ↔
    ∃ sub, s.subsections[index]? = some sub ∧ sub.1.name.text = name
  scalar?_eq : ∀ name : String, i.scalar? name = .ok (s.scalar? name)
  subsection?_eq : ∀ name : String, i.subsection? name = .ok (s.subsection? name)

/-- **The tables of a coherent schema agree with its lists.** -/
theorem Coherent.indexedBy (h : s.Coherent) : s.IndexedBy s.indexed := by
  refine ⟨fun name index => ?_, fun name index => ?_, scalar?_indexed h, subsection?_indexed h⟩
  · rw [indexed_eq]
    exact find?_nameTable_map Var.name h.var_names
  · rw [indexed_eq]
    exact find?_nameTable_map (fun sub : Tag × Schema => sub.1.name) h.tag_names

/-! ### Operations with tables -/

/-- Replacing an entry by one with the same name keeps the names. -/
theorem map_texts_set {α : Type} (key : α → SlotName) {entries : List α} {i : ℕ} {a b : α}
    (ha : entries[i]? = some a) (h : key b = key a) :
    (entries.set i b).map (fun a => (key a).text) = entries.map fun a => (key a).text := by
  have hkept := congrArg (List.map SlotName.text) (map_names_set ha h)
  rwa [List.map_map, List.map_map] at hkept

/-- **Declaring a variable with tables** gives the same handle, and the tables of what is left. -/
theorem declare_indexed (h : s.Coherent) (name : SlotName) (level : TrustLevel) :
    s.indexed.declare name level =
      .ok ((s.declare name level).1, (s.declare name level).2.indexed) := by
  rw [IndexedSchema.declare, h.find?_scalarsByName, declare]
  cases hfind : s.scalar? name.text with
  | some v =>
      obtain ⟨hat, -⟩ := h.scalar?_eq_some_iff.mp hfind
      -- The names are the same, so the table is.
      have hnames : (s.scalars.set v.index { v with level := v.level.join level }).map
          (·.name.text) = s.scalars.map (·.name.text) := map_texts_set Var.name hat rfl
      rw [indexed_eq, indexed_eq]
      simp [entry_eq_ok hat, hnames]
  | none =>
      rw [indexed_eq, indexed_eq]
      simp [nameTable_concat]

/-- Setting the strictness does not touch the tables. -/
theorem setStrict_indexed (s : Schema) (strict : Bool) :
    (s.setStrict strict).indexed = s.indexed.setStrict strict := by
  rw [indexed_eq, indexed_eq]
  rfl

/-- The schema of rows has its tables. -/
theorem child_indexed {t : Tag} {c : Schema} (h : s.child t = .ok c) :
    s.indexed.child t = .ok c.indexed := by
  obtain ⟨hparent, sub, hat, rfl⟩ := child_eq_ok h
  have hcheck : s.indexed.head.checkTag t .schema = .ok () := by
    rw [indexed_eq]
    exact if_pos hparent
  rw [IndexedSchema.child, hcheck, entry_eq_ok (getElem?_indexed hat)]
  rfl

/-- Replacing the schema of rows does not touch the tables of the schema around it. -/
theorem setChild_indexed {t : Tag} {c : Schema} (hsub : s.subsections[t.index]? = some (t, c))
    (d : Schema) : (s.setChild t d).indexed = s.indexed.setRows t.index d.indexed := by
  have hnames : (s.subsections.set t.index (t, d)).map (·.1.name.text) =
      s.subsections.map (·.1.name.text) :=
    map_texts_set (fun sub : Tag × Schema => sub.1.name) hsub rfl
  have hrows : (s.subsections.set t.index (t, d)).map (fun sub => (sub.1, sub.2.indexed)) =
      (s.subsections.map fun sub => (sub.1, sub.2.indexed)).modify t.index
        fun sub => (sub.1, d.indexed) := by
    refine List.ext_getElem? fun i => ?_
    rw [List.getElem?_modify, List.getElem?_map, List.getElem?_map, List.getElem?_set]
    by_cases hi : t.index = i
    · subst hi
      rw [if_pos rfl, if_pos (List.getElem?_eq_some_iff.mp hsub).1, hsub]
      simp
    · simp [hi]
  rw [indexed_eq, indexed_eq, IndexedSchema.setRows, setChild, hnames, hrows]

end Schema

namespace Scope

variable {s : Scope}

/-- The scope with the tables of its schema. -/
def indexed (s : Scope) : IndexedScope :=
  ⟨s.schema.indexed, s.next⟩

/-- **Declaring a subsection with tables** gives the same handle and the schema of its rows with
its tables, and the tables of what is left. -/
theorem declareSubsection_indexed (h : s.schema.WellFormed) (name : SlotName) :
    s.indexed.declareSubsection name =
      .ok (((s.declareSubsection name).1.1, (s.declareSubsection name).1.2.indexed),
        (s.declareSubsection name).2.indexed) := by
  have hplace : s.indexed.place name =
      ((s.declareSubsection name).1.1.index, (s.declareSubsection name).2.indexed) := by
    rw [IndexedScope.place, indexed, h.coherent.find?_subsectionsByName]
    rcases declareSubsection_cases h.coherent name with
      ⟨sub, hat, hname, heq⟩ | ⟨sub, hnew, rfl, heq⟩
    · rw [h.coherent.find_subsection_eq_some_iff.mpr ⟨hat, hname⟩, heq]
      rfl
    · rw [find?_eq_none_of_new hnew, heq, indexed, Schema.indexed_eq, Schema.indexed_eq]
      simp [nameTable_concat, Schema.indexed_empty, IndexedSchema.empty]
  obtain ⟨hat, -⟩ := getElem?_declareSubsection h name
  have hentry := Schema.entry_eq_ok (Schema.getElem?_indexed hat)
  rw [IndexedScope.declareSubsection, hplace]
  simp [indexed, hentry]

end Scope

/-! ### Declarations with tables -/

namespace IndexedScope

mutual

/-- Make a declaration. -/
def use (s : IndexedScope) : Use → Except Misuse IndexedScope
  | .scalar name level => do
      let (_, schema) ← s.schema.declare name level
      return { s with schema }
  | .subsection name uses => do
      let ((tag, rows), declared) ← s.declareSubsection name
      let inner ← useAll ⟨rows, declared.next⟩ uses
      return ⟨declared.schema.setRows tag.index inner.schema, inner.next⟩

/-- Make declarations in order. -/
def useAll (s : IndexedScope) : List Use → Except Misuse IndexedScope
  | [] => .ok s
  | u :: rest => do
      let declared ← s.use u
      declared.useAll rest

end

end IndexedScope

namespace Scope

mutual

/-- **A declaration with tables** leaves the tables of what it leaves without them. -/
theorem use_indexed {s : Scope} (h : s.schema.WellFormed) :
    ∀ u : Use, s.indexed.use u = .ok (s.use u).indexed
  | .scalar name level => by
      rw [IndexedScope.use, indexed, Schema.declare_indexed h.coherent]
      rfl
  | .subsection name uses => by
      obtain ⟨hat, -⟩ := getElem?_declareSubsection h name
      have hinner := useAll_indexed (s := s.inside name) (inside_wellFormed h name) uses
      rw [IndexedScope.use, declareSubsection_indexed h]
      rw [inside, indexed] at hinner
      simp only [Except.bind, bind, indexed, hinner, use, inside, pure, Except.pure]
      rw [Schema.setChild_indexed hat]

/-- Declarations with tables leave the tables of what they leave without them. -/
theorem useAll_indexed {s : Scope} (h : s.schema.WellFormed) :
    ∀ uses : List Use, s.indexed.useAll uses = .ok (s.useAll uses).indexed
  | [] => rfl
  | u :: rest => by
      rw [IndexedScope.useAll, use_indexed h u]
      exact useAll_indexed (use_wellFormed h u).1 rest

end

end Scope

/-! ### Steps with tables -/

/-- **The same is done without tables and with them**: declarations, another strictness, or work
on the rows of a subsection. -/
inductive Edits : Scope → Scope → IndexedScope → IndexedScope → Prop
  | useAll {s : Scope} {i j : IndexedScope} (uses : List Use) (h : i.useAll uses = .ok j) :
      Edits s (s.useAll uses) i j
  | setStrict (s : Scope) (i : IndexedScope) (strict : Bool) :
      Edits s { s with schema := s.schema.setStrict strict } i
        { i with schema := i.schema.setStrict strict }
  | inChild {s inner : Scope} {i j : IndexedScope} {t : Tag} {c : Schema} {rows : IndexedSchema}
      (hchild : s.schema.child t = .ok c) (hrows : i.schema.child t = .ok rows)
      (h : Edits ⟨c, s.next⟩ inner ⟨rows, i.next⟩ j) :
      Edits s ⟨s.schema.setChild t inner.schema, inner.next⟩ i
        ⟨i.schema.setRows t.index j.schema, j.next⟩

/-- Declarations are made with tables as well. -/
theorem Edits.of_onlyDeclares {α : Type} {act : Declaring α} (hact : act.OnlyDeclares) {s : Scope}
    (h : s.schema.WellFormed) : Edits s (act.after s) s.indexed (act.after s).indexed := by
  obtain ⟨uses, hafter⟩ := hact s
  rw [hafter]
  exact .useAll uses (Scope.useAll_indexed h uses)

/-- **A call is carried out with tables**, and leaves the tables of what it leaves without them, if
what its handles tell is true. -/
theorem SchemaCall.run_edits {s : Scope} (h : s.schema.WellFormed) {call : SchemaCall}
    (htags : ∀ t ∈ call.tags, ∀ d ∈ s.schema.family, d.id = t.parent → d.HasRows t) :
    Edits s (call.run.after s) s.indexed (call.run.after s).indexed := by
  induction call generalizing s with
  | declare name level =>
      exact .of_onlyDeclares ((Declaring.varName_onlyDeclares name).bind fun slot =>
        (Declaring.scalar_onlyDeclares slot level).discard) h
  | attach v extra => exact .of_onlyDeclares (Declaring.attach_onlyDeclares v extra).discard h
  | declareSubsection name =>
      exact .of_onlyDeclares ((Declaring.subsectionName_onlyDeclares name).bind fun slot =>
        ((Declaring.OnlyDeclares.pure ()).inSubsection slot).discard) h
  | setStrict strict =>
      have hedits := Edits.setStrict s s.indexed strict
      rwa [Scope.indexed, ← Schema.setStrict_indexed] at hedits
  | declareBindings args => exact .of_onlyDeclares (Declaring.bindings_onlyDeclares args) h
  | inChild t call ih =>
      cases hchild : s.schema.child t with
      | error m =>
          rw [run, Declaring.after, Declaring.inChild, hchild]
          exact .useAll [] rfl
      | ok child =>
          obtain ⟨hparent, sub, hat, rfl⟩ := Schema.child_eq_ok hchild
          obtain ⟨c, hsub⟩ := htags t List.mem_cons_self _ (Schema.mem_family_self _) hparent.symm
          rw [hsub] at hat
          cases hat
          have hmem := List.mem_of_getElem? hsub
          have hinner := @ih ⟨c, s.next⟩ (h.child hmem) fun t' ht' d hd =>
            htags t' (List.mem_cons_of_mem _ ht') d (Schema.mem_family_of_mem hmem hd)
          have hedits := Edits.inChild hchild (i := s.indexed) (Schema.child_indexed hchild) hinner
          rw [run, Declaring.after_inChild hchild]
          rwa [Scope.indexed, Scope.indexed, ← Schema.setChild_indexed hsub] at hedits

/-- **A tree is compiled with tables**, and its schema is left with its tables. -/
theorem Node.compile_edits [UrlReader] {node : Node} {o : LayoutOptions} {s : Scope} {t : Template}
    {next : ℕ} (h : s.schema.WellFormed) (hcompile : node.compile o s = (.ok t, next)) :
    Edits s ⟨t.schema, next⟩ s.indexed (Scope.mk t.schema next).indexed := by
  obtain ⟨uses, hnext, hschema⟩ := node.compile_declares o s
  rw [hcompile] at hnext hschema
  have hafter : s.useAll uses = ⟨t.schema, next⟩ := by
    rw [hschema t rfl]
    exact congrArg (Scope.mk _) hnext.symm
  rw [← hafter]
  exact .useAll uses (Scope.useAll_indexed h uses)

/-- **A schema and one with tables that come about in the same way**, from new ones. -/
inductive Built : Schema → IndexedSchema → Prop
  | root (id : SchemaId) : Built (.root id) (.empty id none)
  | edit {s : Schema} {i : IndexedSchema} {next : ℕ} {s' : Scope} {i' : IndexedScope}
      (h : Built s i) (hedits : Edits ⟨s, next⟩ s' ⟨i, next⟩ i') : Built s'.schema i'.schema

namespace Session

variable [UrlReader] {σ : Session}

/-- **The tables of a schema come about as the schema does**, after any steps: what a program does
to the schema can be done with tables, and leaves the tables of the schema that is there. -/
theorem Reached.built (h : σ.Reached) :
    ∀ holder ∈ σ.holders, Built holder.schema holder.schema.indexed := by
  induction h with
  | start next => exact nofun
  | step hreached hstep ih =>
      cases hstep with
      | newRoot =>
          intro holder hholder
          rcases List.mem_append.mp hholder with hholder | hholder
          · exact ih holder hholder
          · rw [List.mem_singleton.mp hholder]
            exact .root _
      | call hdraft htags =>
          intro holder hholder
          rcases List.mem_or_eq_of_mem_set hholder with hholder | rfl
          · exact ih holder hholder
          · have hmem := List.mem_of_getElem? hdraft
            have hwf := (hreached.valid.inOrder _ hmem).wellFormed
            refine (ih _ hmem).edit (SchemaCall.run_edits hwf fun t ht d hd hid => ?_)
            exact (hreached.valid.tags t (htags t ht)).2 d (mem_schemas_of_mem_family hmem hd) hid
      | compile hdraft hcompile =>
          intro holder hholder
          rcases List.mem_or_eq_of_mem_set hholder with hholder | rfl
          · exact ih holder hholder
          · have hmem := List.mem_of_getElem? hdraft
            have hwf := (hreached.valid.inOrder _ hmem).wellFormed
            exact (ih _ hmem).edit (Node.compile_edits hwf hcompile)
      | refuse hdraft hcompile =>
          exact fun holder hholder => ih holder (List.mem_of_mem_eraseIdx hholder)
      | giveVar => exact ih
      | giveTag => exact ih

/-- **The tables of every schema agree with its lists**, at every level of nesting and after any
steps. -/
theorem Reached.indexedBy (h : σ.Reached) {s : Schema} (hs : s ∈ σ.schemas) :
    s.IndexedBy s.indexed :=
  (h.valid.inOrder_of_mem hs).wellFormed.coherent.indexedBy

end Session

end TrustedHtml
